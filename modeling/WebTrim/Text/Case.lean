import WebTrim.Text.CaseTable
import WebTrim.Text.Letter

/-!
# Letter case

* `lowerChar` — the one-character lower case form.
* `lower` — the lower case form of a text, in which `İ` becomes `i` with a combining dot.
* `lowerAscii` — the lower case form of ASCII letters only.
* `dropWord?` — reads a lower case word without regard to case.

The context rule for a final capital sigma is not applied: it becomes the plain small sigma.
-/

set_option autoImplicit false

namespace WebTrim.Text

/-- The one-character lower case form. -/
def lowerChar (c : Char) : Char :=
  let n := c.toNat
  if n < 0x80 then
    if 'A' ≤ c && c ≤ 'Z' then Char.ofNat (n + 0x20) else c
  else if n = 0x130 then 'i'
  else
    match lowerRuns.find? fun (low, high, stride, _) =>
        low ≤ n && n ≤ high && (n - low) % stride == 0 with
    | some (_, _, _, shift) => Char.ofNat (n + shift).toNat
    | none => c

/-- The lower case form of a text. Only `İ` grows: it becomes `i` and U+0307. -/
def lower (t : Text) : Text :=
  t.flatMap fun c => if c.toNat = 0x130 then ['i', Char.ofNat 0x307] else [lowerChar c]

/-- The lower case form of ASCII letters; other characters stay. -/
def lowerAscii (t : Text) : Text :=
  t.map fun c => if c.toNat < 0x80 then lowerChar c else c

/-- Does `c` read as the lower case letter `letter` when case is ignored? Besides the characters
whose lower case is `letter`, a dotless `ı` reads as `i` and a long `ſ` as `s`. -/
def matchesLetter (letter c : Char) : Bool :=
  lowerChar c == letter || (letter == 'i' && c.toNat == 0x131) || (letter == 's' && c.toNat == 0x17F)

/-- The rest of a text that begins with the lower case `word`, case ignored. -/
def dropWord? : Text → Text → Option Text
  | [], t => some t
  | _ :: _, [] => none
  | w :: word, c :: rest => if matchesLetter w c then dropWord? word rest else none

end WebTrim.Text
