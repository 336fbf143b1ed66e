import StepGlue.Number.Double
import StepGlue.PairList
import StepGlue.Text.Unencodable

/-!
JSON values. An object keeps its members in the order in which their names were first set.
-/

namespace StepGlue

inductive Json where
  | null
  | bool (b : Bool)
  | int (n : Int)
  /-- A number with a fraction or an exponent, or one that is not finite. -/
  | real (x : Double)
  | str (s : String)
  | arr (items : List Json)
  | obj (members : List (String × Json))
deriving Inhabited, Repr

namespace Json

/-- The members of an object. -/
abbrev Object := List (String × Json)

namespace Object

def get? (o : Object) (name : String) : Option Json :=
  PairList.get? o name

def contains (o : Object) (name : String) : Bool :=
  (o.get? name).isSome

def set (o : Object) (name : String) (value : Json) : Object :=
  PairList.set o name value

def update (o changes : Object) : Object :=
  PairList.update o changes

/-- The object of some members; of several with one name the last counts. -/
def ofPairs (pairs : List (String × Json)) : Object :=
  update [] pairs

/-- The member of an object, unless it is absent or null. -/
def given? (o : Object) (name : String) : Option Json :=
  match o.get? name with
  | some null | none => none
  | some v => some v

end Object

/-- Whether a value counts as given: not null, false, zero or empty. -/
def isGiven : Json → Bool
  | null => false
  | bool b => b
  | int n => n != 0
  | real x => !x.isZero
  | str s => s != ""
  | arr items => !items.isEmpty
  | obj members => !members.isEmpty

def asStr? : Json → Option String
  | str s => some s
  | _ => none

mutual

/-- The number of levels of a value, of which one that holds no others has as many as `leaf`
says. -/
def levels (leaf : Nat) : Json → Nat
  | arr items => itemsLevels leaf items + 1
  | obj members => membersLevels leaf members + 1
  | _ => leaf

def itemsLevels (leaf : Nat) : List Json → Nat
  | [] => 0
  | v :: vs => max (levels leaf v) (itemsLevels leaf vs)

def membersLevels (leaf : Nat) : List (String × Json) → Nat
  | [] => 0
  | (_, v) :: rest => max (levels leaf v) (membersLevels leaf rest)

end

/-- The number of values on the longest way into a value, the value itself included. -/
def height (v : Json) : Nat :=
  v.levels 1

/-- The number of arrays and objects on the longest way into a value. -/
def depth (v : Json) : Nat :=
  v.levels 0

mutual

/-- Whether all integers, all real numbers and all texts in a value, names included, pass a test. -/
def everywhere (integer : Int → Bool) (number : Double → Bool) (text : String → Bool) : Json → Bool
  | int n => integer n
  | real x => number x
  | str s => text s
  | arr items => everywhereItems integer number text items
  | obj members => everywhereMembers integer number text members
  | _ => true

def everywhereItems (integer : Int → Bool) (number : Double → Bool) (text : String → Bool) :
    List Json → Bool
  | [] => true
  | v :: vs => everywhere integer number text v && everywhereItems integer number text vs

def everywhereMembers (integer : Int → Bool) (number : Double → Bool) (text : String → Bool) :
    List (String × Json) → Bool
  | [] => true
  | (name, v) :: rest =>
    text name && everywhere integer number text v && everywhereMembers integer number text rest

end

/-- The longest integer that is read or written, in digits. -/
def maxDigits : Nat := 4300

/-- Whether every integer in a value can be written. -/
def hasShortIntegers : Json → Bool :=
  everywhere (fun n => (Nat.toDigits 10 n.natAbs).length ≤ maxDigits) (fun _ => true) fun _ => true

variable [Text.StandIns]

/-- Whether all texts in a value have a form in UTF-8. -/
def isEncodable : Json → Bool :=
  everywhere (fun _ => true) (fun _ => true) Text.isEncodable

/-- Whether a value can be sent: its numbers are finite, and its texts have a form in UTF-8. -/
def isShowable : Json → Bool :=
  everywhere (fun _ => true) Double.isFinite Text.isEncodable

mutual

/-- A value with null for every number that is not finite. -/
def finitePart : Json → Json
  | real x => if x.isFinite then real x else null
  | arr items => arr (finiteItems items)
  | obj members => obj (finiteMembers members)
  | v => v

def finiteItems : List Json → List Json
  | [] => []
  | v :: vs => finitePart v :: finiteItems vs

def finiteMembers : List (String × Json) → List (String × Json)
  | [] => []
  | (name, v) :: rest => (name, finitePart v) :: finiteMembers rest

end

end Json

end StepGlue
