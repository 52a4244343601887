import Chip8.Binary64.Text
import Chip8.Text.Quoted

namespace Chip8

inductive HostValue
  | null
  | bool (b : Bool)
  | int (n : Int)
  | real (x : Binary64)
  | text (s : String)
  | list (items : List HostValue)
  | record (fields : List (String × HostValue))
  deriving Inhabited

namespace HostValue

mutual

def describe : HostValue → String
  | .null => "None"
  | .bool b => if b then "True" else "False"
  | .int n => toString n
  | .real x => x.text
  | .text s => Text.quoted s
  | .list items => "[" ++ ", ".intercalate (describeAll items) ++ "]"
  | .record fields => "\x7b" ++ ", ".intercalate (describeFields fields) ++ "\x7d"

def describeAll : List HostValue → List String
  | [] => []
  | v :: rest => describe v :: describeAll rest

def describeFields : List (String × HostValue) → List String
  | [] => []
  | (name, v) :: rest => (Text.quoted name ++ ": " ++ describe v) :: describeFields rest

end

mutual

def decideEq : (a b : HostValue) → Decidable (a = b)
  | .null, .null => .isTrue rfl
  | .null, .bool _ | .null, .int _ | .null, .real _ | .null, .text _ | .null, .list _
  | .null, .record _ => .isFalse nofun
  | .bool x, .bool y => decidable_of_iff (x = y) (by simp)
  | .bool _, .null | .bool _, .int _ | .bool _, .real _ | .bool _, .text _ | .bool _, .list _
  | .bool _, .record _ => .isFalse nofun
  | .int x, .int y => decidable_of_iff (x = y) (by simp)
  | .int _, .null | .int _, .bool _ | .int _, .real _ | .int _, .text _ | .int _, .list _
  | .int _, .record _ => .isFalse nofun
  | .real x, .real y => decidable_of_iff (x = y) (by simp)
  | .real _, .null | .real _, .bool _ | .real _, .int _ | .real _, .text _ | .real _, .list _
  | .real _, .record _ => .isFalse nofun
  | .text x, .text y => decidable_of_iff (x = y) (by simp)
  | .text _, .null | .text _, .bool _ | .text _, .int _ | .text _, .real _ | .text _, .list _
  | .text _, .record _ => .isFalse nofun
  | .list x, .list y => @decidable_of_iff _ (x = y) (by simp) (decideAllEq x y)
  | .list _, .null | .list _, .bool _ | .list _, .int _ | .list _, .real _ | .list _, .text _
  | .list _, .record _ => .isFalse nofun
  | .record x, .record y => @decidable_of_iff _ (x = y) (by simp) (decideFieldsEq x y)
  | .record _, .null | .record _, .bool _ | .record _, .int _ | .record _, .real _
  | .record _, .text _ | .record _, .list _ => .isFalse nofun

def decideAllEq : (a b : List HostValue) → Decidable (a = b)
  | [], [] => .isTrue rfl
  | [], _ :: _ | _ :: _, [] => .isFalse nofun
  | x :: xs, y :: ys =>
    @decidable_of_iff _ (x = y ∧ xs = ys) (by simp)
      (@instDecidableAnd _ _ (decideEq x y) (decideAllEq xs ys))

def decideFieldsEq : (a b : List (String × HostValue)) → Decidable (a = b)
  | [], [] => .isTrue rfl
  | [], _ :: _ | _ :: _, [] => .isFalse nofun
  | (m, x) :: xs, (n, y) :: ys =>
    @decidable_of_iff _ (m = n ∧ x = y ∧ xs = ys) (by simp [and_assoc])
      (@instDecidableAnd _ _ inferInstance
        (@instDecidableAnd _ _ (decideEq x y) (decideFieldsEq xs ys)))

end

instance : DecidableEq HostValue :=
  decideEq

end HostValue

/-- A rate as the host gives it: an integer or a binary64 number. -/
inductive Number
  | int (n : Int)
  | real (x : Binary64)
  deriving DecidableEq, Repr

namespace Number

def describe : Number → String
  | .int n => toString n
  | .real x => x.text

def isNonpositive : Number → Bool
  | .int n => n ≤ 0
  | .real x => x.isNonpositive

end Number

end Chip8
