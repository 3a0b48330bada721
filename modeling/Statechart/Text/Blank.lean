/-!
Blank characters and trimming.

A blank is a character with the Unicode property White_Space; zero-width characters and the
byte order mark are not blank. Trimming drops blanks from the ends of a text and nothing else.
-/
set_option autoImplicit false

namespace Statechart.Text

/-- The characters with the Unicode property White_Space. -/
def isBlank (c : Char) : Bool :=
  let n := c.toNat
  (9 ≤ n && n ≤ 13) || n == 0x20 || n == 0x85 || n == 0xA0 || n == 0x1680 ||
    (0x2000 ≤ n && n ≤ 0x200A) || n == 0x2028 || n == 0x2029 || n == 0x202F || n == 0x205F ||
    n == 0x3000

def trimStartChars (cs : List Char) : List Char :=
  cs.dropWhile isBlank

def trimEndChars (cs : List Char) : List Char :=
  (cs.reverse.dropWhile isBlank).reverse

def trimChars (cs : List Char) : List Char :=
  trimEndChars (trimStartChars cs)

def trimStart (s : String) : String :=
  String.ofList (trimStartChars s.toList)

def trim (s : String) : String :=
  String.ofList (trimChars s.toList)

def isBlankText (s : String) : Bool :=
  s.toList.all isBlank

@[simp] theorem toList_trim (s : String) : (trim s).toList = trimChars s.toList := by
  simp [trim]

@[simp] theorem toList_trimStart (s : String) :
    (trimStart s).toList = trimStartChars s.toList := by
  simp [trimStart]

@[simp] theorem trimChars_nil : trimChars [] = [] := rfl

end Statechart.Text
