import ScriptLang.Attempt
import ScriptLang.Command
import ScriptLang.Environment
import ScriptLang.Evaluation
import ScriptLang.Grammar
import ScriptLang.Main
import ScriptLang.Program
import ScriptLang.Program.Canonical
import ScriptLang.Program.Outline
import ScriptLang.Proofs.Canonical.Calls
import ScriptLang.Proofs.Canonical.Derivation
import ScriptLang.Proofs.Canonical.Parentheses
import ScriptLang.Proofs.Canonical.RoundTrip
import ScriptLang.Proofs.Canonical.Tokens
import ScriptLang.Proofs.Concatenation
import ScriptLang.Proofs.Evaluation.Binding
import ScriptLang.Proofs.Evaluation.Call
import ScriptLang.Proofs.Evaluation.DeadCode
import ScriptLang.Proofs.Evaluation.Frames
import ScriptLang.Proofs.Evaluation.Inert
import ScriptLang.Proofs.Evaluation.Limit
import ScriptLang.Proofs.Evaluation.Nesting
import ScriptLang.Proofs.Evaluation.Operation
import ScriptLang.Proofs.Evaluation.Point
import ScriptLang.Proofs.Evaluation.Reached
import ScriptLang.Proofs.Evaluation.Relocation
import ScriptLang.Proofs.Evaluation.Scope
import ScriptLang.Proofs.Evaluation.Simulation
import ScriptLang.Proofs.Evaluation.Soundness
import ScriptLang.Proofs.Evaluation.Termination
import ScriptLang.Proofs.Evaluation.Unmentioned
import ScriptLang.Proofs.Failure
import ScriptLang.Proofs.Grammar.Calls
import ScriptLang.Proofs.Grammar.Completeness
import ScriptLang.Proofs.Grammar.Confinement
import ScriptLang.Proofs.Grammar.Derivation
import ScriptLang.Proofs.Grammar.Fault
import ScriptLang.Proofs.Grammar.Follow
import ScriptLang.Proofs.Grammar.Leniency
import ScriptLang.Proofs.Grammar.Locality
import ScriptLang.Proofs.Grammar.Mentions
import ScriptLang.Proofs.Grammar.Placement
import ScriptLang.Proofs.Grammar.Production
import ScriptLang.Proofs.Grammar.Progress
import ScriptLang.Proofs.Grammar.Reading
import ScriptLang.Proofs.Grammar.Recognition
import ScriptLang.Proofs.Grammar.Relocation
import ScriptLang.Proofs.Grammar.WellFormed
import ScriptLang.Proofs.Image
import ScriptLang.Proofs.Layout
import ScriptLang.Proofs.Outline.Indentation
import ScriptLang.Proofs.Outline.Legible
import ScriptLang.Proofs.Outline.Program
import ScriptLang.Proofs.Program.Arguments
import ScriptLang.Proofs.Program.Nodes
import ScriptLang.Proofs.Program.Relocation
import ScriptLang.Proofs.Program.WellFormed
import ScriptLang.Proofs.Prompt
import ScriptLang.Proofs.Table
import ScriptLang.Proofs.Text
import ScriptLang.Proofs.Token.Concatenation
import ScriptLang.Proofs.Token.Cut
import ScriptLang.Proofs.Token.Listing
import ScriptLang.Proofs.Token.Regular
import ScriptLang.Proofs.Token.Segmentation
import ScriptLang.Proofs.Token.Unreadable
import ScriptLang.Text.Character
import ScriptLang.Text.Format
import ScriptLang.Token
