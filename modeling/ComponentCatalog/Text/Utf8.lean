/-!
# UTF-8

Bytes, and the text that they write.  A byte sequence that is no text is refused: a character has
to be written with the fewest bytes, and neither halves of surrogate pairs nor numbers past the
last character can be written.
-/

set_option autoImplicit false

namespace ComponentCatalog

/-- The content of a file. -/
abbrev Bytes := List UInt8

namespace Utf8

/-- Whether a byte continues a character. -/
def continues (b : UInt8) : Bool := 0x80 ≤ b.toNat && b.toNat < 0xC0

/-- The number that a first byte and continuing bytes write, by their low bits. -/
def number (first : Nat) (rest : List UInt8) : Nat :=
  rest.foldl (fun n b ↦ n * 64 + (b.toNat - 0x80)) first

/-- The text that the bytes write. -/
def decode : Bytes → Option (List Char)
  | [] => some []
  | a :: rest =>
    if a.toNat < 0x80 then (decode rest).map (Char.ofNat a.toNat :: ·)
    else
      match rest with
      | [] => none
      | b :: rest =>
        if !continues b then none
        else if 0xC2 ≤ a.toNat ∧ a.toNat < 0xE0 then
          (decode rest).map (Char.ofNat (number (a.toNat - 0xC0) [b]) :: ·)
        else
          match rest with
          | [] => none
          | c :: rest =>
            if !continues c then none
            else if 0xE0 ≤ a.toNat ∧ a.toNat < 0xF0 then
              let n := number (a.toNat - 0xE0) [b, c]
              if n < 0x800 ∨ (0xD800 ≤ n ∧ n < 0xE000) then none
              else (decode rest).map (Char.ofNat n :: ·)
            else
              match rest with
              | [] => none
              | d :: rest =>
                if !continues d then none
                else if 0xF0 ≤ a.toNat ∧ a.toNat < 0xF5 then
                  let n := number (a.toNat - 0xF0) [b, c, d]
                  if n < 0x10000 ∨ 0x110000 ≤ n then none
                  else (decode rest).map (Char.ofNat n :: ·)
                else none

/-- The text that the bytes write. -/
def decodeText (bytes : Bytes) : Option String := (decode bytes).map String.ofList

/-- How many bytes continue a character that starts with a byte, and the least and greatest that the
first of them can be; no byte, if no character starts so. -/
def continuation (first : Nat) : Nat × Nat × Nat :=
  if 0xC2 ≤ first ∧ first ≤ 0xDF then (1, 0x80, 0xBF)
  else if first = 0xE0 then (2, 0xA0, 0xBF)
  else if first = 0xED then (2, 0x80, 0x9F)
  else if 0xE1 ≤ first ∧ first ≤ 0xEF then (2, 0x80, 0xBF)
  else if first = 0xF0 then (3, 0x90, 0xBF)
  else if 0xF1 ≤ first ∧ first ≤ 0xF3 then (3, 0x80, 0xBF)
  else if first = 0xF4 then (3, 0x80, 0x8F)
  else (0, 0, 0)

/-- The bytes of `rest` that continue a character with the first byte `first`, as far as they do. -/
def continuing (first : Nat) (rest : Bytes) : Bytes :=
  let (count, least, greatest) := continuation first
  match rest.take count with
  | [] => []
  | b :: more =>
    if least ≤ b.toNat ∧ b.toNat ≤ greatest then b :: more.takeWhile continues else []

/-- The bits of a first byte that count, before `count` more bytes. -/
def leadingBits (first count : Nat) : Nat :=
  if count = 1 then first - 0xC0 else if count = 2 then first - 0xE0 else first - 0xF0

/-- The text that the bytes write, with a replacement character for each longest start of a
character that is not complete and for each byte that starts none. -/
def lossyChars : Bytes → List Char
  | [] => []
  | a :: rest =>
    if a.toNat < 0x80 then Char.ofNat a.toNat :: lossyChars rest
    else
      let more := continuing a.toNat rest
      let count := (continuation a.toNat).1
      (if 0 < count ∧ more.length = count then
        Char.ofNat (number (leadingBits a.toNat count) more)
      else '\uFFFD') :: lossyChars (rest.drop more.length)
termination_by bytes => bytes.length
decreasing_by
  · simp
  · simp only [List.length_drop, List.length_cons]; omega

/-- The text that the bytes write, as far as they write one. -/
def decodeLossy (bytes : Bytes) : String := String.ofList (lossyChars bytes)

/-- The bytes of a text. -/
def encode (text : String) : Bytes := text.toUTF8.toList

end Utf8

end ComponentCatalog
