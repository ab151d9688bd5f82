import Bracketed.Proofs.Arena
import Bracketed.Proofs.Scan.Parse
import Bracketed.Proofs.Tiling

namespace Bracketed

namespace Parser

variable {T : Type}

end Parser

end Bracketed
