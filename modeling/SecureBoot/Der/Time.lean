import SecureBoot.Der.Element

/-!
# DER times

The two forms of a point in time, `YYMMDDhhmmssZ` and `YYYYMMDDhhmmssZ`, from 1970 on.  Only
whether an element is a time matters here: `Der.isTime`.
-/

namespace SecureBoot.Der

def decimal? : Bytes → Option Nat :=
  List.foldlM (fun n b =>
    if 0x30 ≤ b.toNat ∧ b.toNat ≤ 0x39 then some (10 * n + (b.toNat - 0x30)) else none) 0

def decimalPairs? : Bytes → Option (List Nat)
  | [] => some []
  | a :: b :: rest => do return (← decimal? [a, b]) :: (← decimalPairs? rest)
  | [_] => none

def isLeapYear (year : Nat) : Bool :=
  decide (year % 4 = 0 ∧ (year % 100 ≠ 0 ∨ year % 400 = 0))

/-- The number of days of a month, counted from one; none for a month that does not exist. -/
def daysOf (year month : Nat) : Nat :=
  match month with
  | 1 | 3 | 5 | 7 | 8 | 10 | 12 => 31
  | 4 | 6 | 9 | 11 => 30
  | 2 => if isLeapYear year then 29 else 28
  | _ => 0

/-- Whether year, month, day, hour, minute and second are a point in time. -/
def isDateTime (year month day hour minute second : Nat) : Bool :=
  decide (1970 ≤ year ∧ 1 ≤ day ∧ day ≤ daysOf year month ∧
    hour ≤ 23 ∧ minute ≤ 59 ∧ second ≤ 59)

/-- Whether a content ends in `Z` after digits in pairs that satisfy a condition. -/
def isZulu (content : Bytes) (accept : List Nat → Bool) : Bool :=
  content.getLast? == some 0x5a && (decimalPairs? content.dropLast).any accept

/-- Whether an element is a time with two digits for the year, which lies between 1950 and 2049. -/
def isUtcTime (e : Element) : Bool :=
  (e.content? Tag.utcTime).any fun content => isZulu content fun
    | [year, month, day, hour, minute, second] =>
      isDateTime (if 50 ≤ year then 1900 + year else 2000 + year) month day hour minute second
    | _ => false

/-- Whether an element is a time with four digits for the year. -/
def isGeneralizedTime (e : Element) : Bool :=
  (e.content? Tag.generalizedTime).any fun content => isZulu content fun
    | [century, year, month, day, hour, minute, second] =>
      isDateTime (100 * century + year) month day hour minute second
    | _ => false

/-- Whether an element is a time of either form. -/
def isTime (e : Element) : Bool :=
  isUtcTime e || isGeneralizedTime e

end SecureBoot.Der
