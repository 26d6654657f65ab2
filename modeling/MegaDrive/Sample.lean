/-
A small hand-assembled cartridge.  It begins with its stack pointer and the
address of its code, which is 8.
-/
import MegaDrive.Width

namespace MegaDrive

namespace Sample

/-- The bytes of a list of words, upper byte first. -/
def image (words : List Word) : Array Byte :=
  (words.flatMap fun word =>
    [word.extractLsb' 8 8, word.extractLsb' 0 8]).toArray

/-- The start of a console: it looks at the expansion ports, and writes the
password to the latch unless the hardware version is zero. -/
def latchUnlock : Array Byte :=
  image [0x00FF, 0xFE00, 0x0000, 0x0008,
    0x4AB9, 0x00A1, 0x0008,                          -- tst.l $00a10008
    0x6606,                                          -- bne.s *+8
    0x4A79, 0x00A1, 0x000C,                          -- tst.w $00a1000c
    0x4BFA, 0x0034,                                  -- lea 52(pc),a5
    0x1039, 0x00A1, 0x0001,                          -- move.b $00a10001,d0
    0x0200, 0x000F,                                  -- andi.b #$f,d0
    0x670A,                                          -- beq.s *+12
    0x23FC, 0x5345, 0x4741,                          -- move.l #$53454741,
    0x00A1, 0x4000,                                  --   $00a14000
    0x4E72, 0x2700]                                  -- stop #$2700

end Sample

end MegaDrive
