import Reckon.Main
import Reckon.Yaml.Tag
import Reckon.Proofs.Session.Compound
import Reckon.Proofs.Session.Definite
import Reckon.Proofs.Session.Joining
import Reckon.Proofs.Session.Layout
import Reckon.Proofs.Session.Permanence
import Reckon.Proofs.Grammar.Regrouping
import Reckon.Proofs.Interchange
import Reckon.Proofs.Session.Products
import Reckon.Proofs.Evaluation.Fault
import Reckon.Proofs.Session.Faults
import Reckon.Proofs.Evaluation.Printing
import Reckon.Proofs.Session.Printing
import Reckon.Proofs.Grammar.Arithmetic
import Reckon.Proofs.Session.Arithmetic
import Reckon.Proofs.Typing.Idempotence
import Reckon.Proofs.Evaluation.Dialect
import Reckon.Proofs.Session.Dialect
import Reckon.Proofs.Token.Unreadable
import Reckon.Proofs.Session.Unreadable
import Reckon.Proofs.Evaluation.Integers
import Reckon.Proofs.Session.Operators
import Reckon.Proofs.Grammar.EndOfInput
import Reckon.Proofs.Grammar.Progress
import Reckon.Proofs.Scope.Bracket
import Reckon.Proofs.Session.Scoping
import Reckon.Proofs.Token.Standing
import Reckon.Proofs.Grammar.Places
import Reckon.Proofs.Session.Diagnostics
import Reckon.Proofs.Scope.History
import Reckon.Proofs.Scope.Listing
