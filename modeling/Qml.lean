import Qml.Exports
import Qml.Parse
import Qml.Proofs.ArrayLiterals
import Qml.Proofs.CapturedSource
import Qml.Proofs.Context
import Qml.Proofs.Coverage
import Qml.Proofs.Elements
import Qml.Proofs.Excerpts
import Qml.Proofs.Failures
import Qml.Proofs.Height.Bound
import Qml.Proofs.InstanceTest.Replacement
import Qml.Proofs.JoinedScripts
import Qml.Proofs.Jumps
import Qml.Proofs.Layout
import Qml.Proofs.LineBreaks
import Qml.Proofs.Lookahead
import Qml.Proofs.MemberSpans
import Qml.Proofs.Options
import Qml.Proofs.PatchedStretches
import Qml.Proofs.Precedence
import Qml.Proofs.ScriptExtension
import Qml.Proofs.SignalBinding
import Qml.Proofs.Spans
import Qml.Proofs.Structure
import Qml.Proofs.Termination
import Qml.Proofs.Token.Canonical
import Qml.Proofs.Token.NumberLiterals
