import Correlia.Lib.JsonLength

/-!
# Lib.JsonAscii — JSON texts in ASCII

`asciiJson` is what `json.dumps(value, sort_keys=True, separators=(",", ":"))` returns: the
canonical text with every character from DEL on escaped.
-/

namespace Lib

/-- One character of the canonical text: what is not ASCII becomes `\uXXXX`, in two halves from
2¹⁶ on. -/
def asciiChar (c : Char) : List Char :=
  if c.toNat < 127 then [c]
  else if c.toNat < 65536 then ['\\', 'u'] ++ hexField 4 c.toNat
  else ['\\', 'u'] ++ hexField 4 (55296 + (c.toNat - 65536) / 1024) ++
    ['\\', 'u'] ++ hexField 4 (56320 + (c.toNat - 65536) % 1024)

def asciiJson (j : Json) : List Char := j.canonicalJson.flatMap asciiChar

example : asciiJson (.object [("b", .string "é\n"), ("a", .array [.int 1, .bool true])]) =
    "\x7b\"a\":[1,true],\"b\":\"\\u00e9\\n\"\x7d".toList := by decide

/-- The bytes a character of the canonical text takes. -/
def asciiWeight (c : Char) : ℕ := byteLength (asciiChar c)

theorem structural_asciiWeight : Structural asciiWeight := by
  intro c hc
  fin_cases hc <;> decide

theorem byteLength_asciiJson (j : Json) :
    byteLength (asciiJson j) = weigh asciiWeight j.canonicalJson :=
  weigh_flatMap asciiChar j.canonicalJson

/-- A string takes at least its two quotes. -/
theorem two_le_stringText (s : String) : 2 ≤ weigh asciiWeight (Json.stringText s) := by
  have hquote : asciiWeight '"' = 1 := structural_asciiWeight '"' (by simp)
  simp only [Json.stringText, weigh_append, weigh_cons, weigh_nil, hquote]
  omega

end Lib
