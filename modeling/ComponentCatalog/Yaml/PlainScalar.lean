import ComponentCatalog.Yaml.Scalar

/-!
# What plain scalars mean

A plain scalar can stand for nothing, for a truth value or for a number.  A text that would be taken
for one of these has to be written in quotes.
-/

set_option autoImplicit false

namespace ComponentCatalog.Yaml.PlainScalar

/-- Whether a plain scalar stands for nothing. -/
def isNull (text : String) : Bool := ["null", "Null", "NULL", "~"].contains text

/-- The truth value that a plain scalar stands for. -/
def truth? (text : String) : Option Bool :=
  if ["true", "True", "TRUE"].contains text then some true
  else if ["false", "False", "FALSE"].contains text then some false
  else none

/-- The number that digits write, one digit or more. -/
def digits? (base : Nat) (digits : List Char) : Option Nat :=
  if digits.isEmpty then none
  else digits.foldlM (fun n c ↦ do
    let d ← hexDigit? c
    if d < base then some (n * base + d) else none) 0

/-- The number after a mark of its base. -/
def marked? : List Char → Option Nat
  | '0' :: 'x' :: digits => digits? 16 digits
  | '0' :: 'o' :: digits => digits? 8 digits
  | '0' :: 'b' :: digits => digits? 2 digits
  | _ => none

/-- Whether a text is made of digits, the first of several being a zero.  Such a text is no
number. -/
def isZeroPadded : List Char → Bool
  | '0' :: c :: rest => (c :: rest).all Char.isDigit
  | _ => false

/-- The number that digits without a sign write. -/
def magnitude? (cs : List Char) : Option Nat :=
  (marked? cs).or (if isZeroPadded cs then none else digits? 10 cs)

/-- The natural number that a plain scalar stands for. -/
def natural? (text : String) : Option Nat :=
  match text.toList with
  | '+' :: cs => magnitude? cs
  | cs => magnitude? cs

/-- Whether a plain scalar stands for a whole number that fits into 128 bits. -/
def isWhole (text : String) : Bool :=
  match text.toList with
  | '-' :: cs => ((magnitude? cs).map fun n ↦ decide (n ≤ Nat.pow 2 127)).getD false
  | _ => ((natural? text).map fun n ↦ decide (n < Nat.pow 2 128)).getD false

/-! ## Fractions -/

/-- The decimal exponent that stands at the end of a number. -/
def exponent? : List Char → Option Int
  | [] => some 0
  | e :: cs =>
    if e = 'e' ∨ e = 'E' then
      match cs with
      | '-' :: digits => (digits? 10 digits).map fun n ↦ -(n : Int)
      | '+' :: digits => (digits? 10 digits).map fun n ↦ (n : Int)
      | digits => (digits? 10 digits).map fun n ↦ (n : Int)
    else none

/-- A decimal number without a sign, as a whole number and the power of ten to multiply it with. -/
def decimal? (cs : List Char) : Option (Nat × Int) := do
  let whole := cs.takeWhile Char.isDigit
  let rest := cs.dropWhile Char.isDigit
  let (fraction, rest) := match rest with
    | '.' :: rest => (rest.takeWhile Char.isDigit, rest.dropWhile Char.isDigit)
    | rest => ([], rest)
  let digits ← digits? 10 (whole ++ fraction)
  let exponent ← exponent? rest
  pure (digits, exponent - fraction.length)

/-- The least number that is rounded to infinity in double precision. -/
def infinite : Nat := Nat.pow 2 1024 - Nat.pow 2 970

/-- Whether a decimal number is finite in double precision. -/
def isFinite (digits : Nat) (exponent : Int) : Bool :=
  if digits = 0 then true
  else if exponent < 0 then
    decide (Nat.log2 digits < exponent.natAbs) ||
      decide (digits < infinite * Nat.pow 10 exponent.natAbs)
  else decide (exponent ≤ 400) && decide (digits * Nat.pow 10 exponent.natAbs < infinite)

/-- Whether a plain scalar stands for a number with a fraction or an exponent, for infinity or for
no number. -/
def isFraction (text : String) : Bool :=
  let unsigned := match text.toList with
    | '+' :: cs => cs
    | cs => cs
  let special := [".inf", ".Inf", ".INF"].contains (String.ofList unsigned) ||
    ["-.inf", "-.Inf", "-.INF", ".nan", ".NaN", ".NAN"].contains text
  let magnitude := match text.toList with
    | '+' :: cs => cs
    | '-' :: cs => cs
    | cs => cs
  special ||
    (!isZeroPadded magnitude &&
      ((decimal? magnitude).map fun (digits, exponent) ↦ isFinite digits exponent).getD false)

/-- Whether a text would not be taken for a text if it were written plain. -/
def isAmbiguous (text : String) : Bool :=
  text.isEmpty || isNull text || (truth? text).isSome || isWhole text || isFraction text ||
    isZeroPadded (match text.toList with
      | '+' :: cs => cs
      | '-' :: cs => cs
      | cs => cs)

end ComponentCatalog.Yaml.PlainScalar
