import EditorToolbar.Json.Reading
import EditorToolbar.Main
import EditorToolbar.Proofs.ImageToolbar
import EditorToolbar.Proofs.MobileToolbar
import EditorToolbar.Proofs.Normalization.Agreement
import EditorToolbar.Proofs.Normalization.Canonical
import EditorToolbar.Proofs.Normalization.Completeness
import EditorToolbar.Proofs.Normalization.Unmodified
import EditorToolbar.Proofs.Toolbar.NormalForm
import EditorToolbar.Proofs.Modifier.Confluence
import EditorToolbar.Proofs.Modifier.Tokens
import EditorToolbar.Proofs.Repair.Respelling
import EditorToolbar.Proofs.Token.Spelling
import EditorToolbar.Proofs.EditorConfig
import EditorToolbar.Proofs.Exclusion.Chain
import EditorToolbar.Proofs.Exclusion.WholeWords
import EditorToolbar.Proofs.Json.RoundTrip
import EditorToolbar.Proofs.Toolbar.Json
import EditorToolbar.Proofs.CommandLine.Views
import EditorToolbar.Proofs.Repair.Boundaries
import EditorToolbar.Proofs.Repair.Runs
import EditorToolbar.Proofs.Settings.Defaults
import EditorToolbar.Proofs.Settings.Overrides
import EditorToolbar.Proofs.CommandLine.Configuration
