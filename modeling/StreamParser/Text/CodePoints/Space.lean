import StreamParser.Text.CodePoints

/-!
# White space

The Unicode class of white space.
-/

namespace StreamParser.CodePoints

/-- White space. -/
def space : CodePoints := ⟨
  [(0x9, 0xD), (0x20, 0x20), (0x85, 0x85), (0xA0, 0xA0), (0x1680, 0x1680), (0x2000, 0x200A),
   (0x2028, 0x2029), (0x202F, 0x202F), (0x205F, 0x205F), (0x3000, 0x3000)]⟩

end StreamParser.CodePoints
