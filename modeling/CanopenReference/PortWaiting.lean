import CanopenReference.Library.Runs
import CanopenReference.PortLifecycle

/-!
# A poll that waits

The loop in `can_port_poll` under interrupts and the clock.
-/

set_option autoImplicit false

namespace CanopenReference.PortWaiting
open Library Library.Runs RxRings PortLifecycle

section Waiting
variable {p : CanPort}

end Waiting

end CanopenReference.PortWaiting
