import Parsing.Cursor.Session
import Parsing.Inspect
import Parsing.Json
import Parsing.Script.Run
import Parsing.Proofs.Reachable
import Parsing.Proofs.Correspondence
import Parsing.Proofs.Correspondence.Loops
import Parsing.Proofs.Scheme
import Parsing.Proofs.Correspondence.Same
import Parsing.Proofs.Answers
import Parsing.Proofs.Correspondence.Translated
import Parsing.Proofs.Bounds
import Parsing.Proofs.Termination
import Parsing.Proofs.Translation
import Parsing.Proofs.Relabelling
import Parsing.Proofs.Moves
import Parsing.Proofs.Spelling
import Parsing.Proofs.Anchoring
import Parsing.Proofs.Sequencing
import Parsing.Proofs.Lines
import Parsing.Proofs.Repetition
import Parsing.Proofs.Iteration
import Parsing.Proofs.Containment
import Parsing.Proofs.Rendering
import Parsing.Proofs.Results
import Parsing.Proofs.Delimiters
import Parsing.Proofs.Nesting
import Parsing.Proofs.Cuts
import Parsing.Proofs.Nullable
import Parsing.Proofs.Gathering
import Parsing.Proofs.Alternatives
import Parsing.Proofs.Binding
import Parsing.Proofs.Speculation
import Parsing.Proofs.Log
