import Reckon.Main
import Reckon.Proofs.Console.ExitCode
import Reckon.Proofs.Console.Prompt
import Reckon.Proofs.Cursor.Slice
import Reckon.Proofs.Expr.Boundary
import Reckon.Proofs.Expr.Postfix
import Reckon.Proofs.Log.History
import Reckon.Proofs.Schema.Balance
import Reckon.Proofs.Schema.Generation
import Reckon.Proofs.Schema.Keyword
import Reckon.Proofs.Schema.Method
import Reckon.Proofs.Session.Concatenation
import Reckon.Proofs.Session.Negation
import Reckon.Proofs.Session.PrefixForm
import Reckon.Proofs.Token.Blanking
import Reckon.Proofs.Token.Nesting
