/-!
# ScatterGather.Text — the text of numbers and records

Numbers are written in base sixteen with lower-case digits, after the mark `0x`, either with as few
digits as the value needs or filled up with zeros to a fixed count. A record is its name and its
labelled fields in braces.
-/

namespace ScatterGather.Text

/-- The digits of `n` in base sixteen, filled up with zeros to at least `width` of them. -/
def hexDigits (width n : Nat) : String :=
  let digits := Nat.toDigits 16 n
  String.ofList (List.replicate (width - digits.length) '0' ++ digits)

/-- As few digits as the value needs, after the mark. -/
def hex (n : Nat) : String :=
  "0x" ++ hexDigits 1 n

/-- The eight digits of a 32-bit word, after the mark. -/
def hexWord (w : UInt32) : String :=
  "0x" ++ hexDigits 8 w.toNat

/-- A truth value in text. -/
def bool (b : Bool) : String :=
  if b then "true" else "false"

/-- The text of a record: its name, then its fields in order, each with its label. -/
def record (name : String) (fields : List (String × String)) : String :=
  let body := ", ".intercalate (fields.map fun field => field.1 ++ ": " ++ field.2)
  name ++ " \x7b " ++ body ++ " \x7d"

/-- The text of a record that shows only some of its fields. -/
def partialRecord (name : String) (fields : List (String × String)) : String :=
  let body := ", ".intercalate (fields.map fun field => field.1 ++ ": " ++ field.2)
  name ++ " \x7b " ++ body ++ ", .. \x7d"

end ScatterGather.Text
