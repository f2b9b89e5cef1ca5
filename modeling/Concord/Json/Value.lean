/-
JSON values. An object keeps its members as they were written, repeated keys
included; `Datum` bundles a value as it is stored: its objects have their keys once
and in increasing order, its whole numbers have 64 bits and its doubles are finite.
-/
import Concord.Number.Read
import Concord.Order.KeyMap

namespace Concord

/-- A JSON value. Whole numbers and doubles are different values. -/
inductive Json where
  | null
  | bool (b : Bool)
  | int (n : Int)
  | float (x : Float)
  | str (s : String)
  | arr (items : List Json)
  | obj (members : List (String × Json))
deriving Repr, Inhabited

namespace Json

open KeyMap

mutual

/-- Equality of values, member by member. -/
def decEq : (a b : Json) → Decidable (a = b)
  | .null, .null => isTrue rfl
  | .bool a, .bool b => decidable_of_iff (a = b) (by simp)
  | .int a, .int b => decidable_of_iff (a = b) (by simp)
  | .float a, .float b => decidable_of_iff (a = b) (by simp)
  | .str a, .str b => decidable_of_iff (a = b) (by simp)
  | .arr a, .arr b =>
    match decEqItems a b with
    | isTrue h => isTrue (h ▸ rfl)
    | isFalse h => isFalse fun e => h (Json.arr.inj e)
  | .obj a, .obj b =>
    match decEqMembers a b with
    | isTrue h => isTrue (h ▸ rfl)
    | isFalse h => isFalse fun e => h (Json.obj.inj e)
  | .null, .bool _ | .null, .int _ | .null, .float _ | .null, .str _ | .null, .arr _
  | .null, .obj _ | .bool _, .null | .bool _, .int _ | .bool _, .float _ | .bool _, .str _
  | .bool _, .arr _ | .bool _, .obj _ | .int _, .null | .int _, .bool _ | .int _, .float _
  | .int _, .str _ | .int _, .arr _ | .int _, .obj _ | .float _, .null | .float _, .bool _
  | .float _, .int _ | .float _, .str _ | .float _, .arr _ | .float _, .obj _ | .str _, .null
  | .str _, .bool _ | .str _, .int _ | .str _, .float _ | .str _, .arr _ | .str _, .obj _
  | .arr _, .null | .arr _, .bool _ | .arr _, .int _ | .arr _, .float _ | .arr _, .str _
  | .arr _, .obj _ | .obj _, .null | .obj _, .bool _ | .obj _, .int _ | .obj _, .float _
  | .obj _, .str _ | .obj _, .arr _ => isFalse (fun h => nomatch h)

def decEqItems : (a b : List Json) → Decidable (a = b)
  | [], [] => isTrue rfl
  | [], _ :: _ => isFalse (fun h => nomatch h)
  | _ :: _, [] => isFalse (fun h => nomatch h)
  | a :: as, b :: bs =>
    match decEq a b, decEqItems as bs with
    | isTrue h, isTrue hs => isTrue (h ▸ hs ▸ rfl)
    | isFalse h, _ => isFalse fun e => h (List.cons.inj e).1
    | _, isFalse hs => isFalse fun e => hs (List.cons.inj e).2

def decEqMembers : (a b : List (String × Json)) → Decidable (a = b)
  | [], [] => isTrue rfl
  | [], _ :: _ => isFalse (fun h => nomatch h)
  | _ :: _, [] => isFalse (fun h => nomatch h)
  | (k, a) :: as, (l, b) :: bs =>
    if hk : k = l then
      match decEq a b, decEqMembers as bs with
      | isTrue h, isTrue hs => isTrue (hk ▸ h ▸ hs ▸ rfl)
      | isFalse h, _ => isFalse fun e => h (Prod.mk.inj (List.cons.inj e).1).2
      | _, isFalse hs => isFalse fun e => hs (List.cons.inj e).2
    else isFalse fun e => hk (Prod.mk.inj (List.cons.inj e).1).1

end

instance : DecidableEq Json := decEq

mutual

/-- How deep lists and objects are nested in a value. -/
def height : Json → Nat
  | .arr items => heightItems items + 1
  | .obj members => heightMembers members + 1
  | _ => 0

def heightItems : List Json → Nat
  | [] => 0
  | j :: items => max j.height (heightItems items)

def heightMembers : List (String × Json) → Nat
  | [] => 0
  | (_, j) :: members => max j.height (heightMembers members)

end

/-- The first member with the given key. -/
def member? (members : List (String × Json)) (key : String) : Option Json :=
  (members.find? fun m => m.1 == key).map Prod.snd

/-- Whether a whole number has 64 bits, with a sign or without one. -/
def isWhole64 (n : Int) : Bool := Number.minInt64 ≤ n && n ≤ Int.ofNat Number.maxNat64

/-- A double as it is stored; there is none that is not finite. -/
def settleFloat (x : Float) : Json := if x.isFinite then .float x else .null

/-- A whole number as it is stored; outside 64 bits it is a double. -/
def settleInt (n : Int) : Json := if isWhole64 n then .int n else settleFloat (Number.nearestInt n)

mutual

/-- A value as it is stored: keys in increasing order, numbers in their range. -/
def settle : Json → Json
  | .int n => settleInt n
  | .float x => settleFloat x
  | .arr items => .arr (settleItems items)
  | .obj members => .obj (sortMembers (settleMembers members))
  | j => j

def settleItems : List Json → List Json
  | [] => []
  | j :: items => j.settle :: settleItems items

def settleMembers : List (String × Json) → List (String × Json)
  | [] => []
  | (k, j) :: members => (k, j.settle) :: settleMembers members

end

mutual

/-- Whether every object of a value has increasing keys and every number is in its range. -/
def isSettled : Json → Bool
  | .int n => isWhole64 n
  | .float x => x.isFinite
  | .arr items => isSettledItems items
  | .obj members =>
    (members.map Prod.fst).Pairwise (fun a b => a < b) && isSettledMembers members
  | _ => true

def isSettledItems : List Json → Bool
  | [] => true
  | j :: items => j.isSettled && isSettledItems items

def isSettledMembers : List (String × Json) → Bool
  | [] => true
  | (_, j) :: members => j.isSettled && isSettledMembers members

end

mutual

/-- Equality as the stored values have it: doubles are compared as numbers. -/
def same : Json → Json → Bool
  | .null, .null => true
  | .bool a, .bool b => a == b
  | .int a, .int b => a == b
  | .float a, .float b => a == b
  | .str a, .str b => a == b
  | .arr a, .arr b => sameItems a b
  | .obj a, .obj b => sameMembers a b
  | _, _ => false

def sameItems : List Json → List Json → Bool
  | [], [] => true
  | a :: as, b :: bs => same a b && sameItems as bs
  | _, _ => false

def sameMembers : List (String × Json) → List (String × Json) → Bool
  | [], [] => true
  | (k, a) :: as, (l, b) :: bs => k == l && same a b && sameMembers as bs
  | _, _ => false

end

/-! ## Settling -/

theorem isSettledMembers_iff (members : List (String × Json)) :
    isSettledMembers members = true ↔ ∀ m ∈ members, m.2.isSettled = true := by
  induction members with
  | nil => simp [isSettledMembers]
  | cons m rest ih => obtain ⟨k, j⟩ := m; simp [isSettledMembers, ih]

theorem isSettled_settleFloat (x : Float) : (settleFloat x).isSettled = true := by
  unfold settleFloat
  split
  · assumption
  · rfl

theorem isSettled_settleInt (n : Int) : (settleInt n).isSettled = true := by
  unfold settleInt
  split
  · assumption
  · exact isSettled_settleFloat _

mutual

/-- Settled values have their keys in order and their numbers in range. -/
theorem isSettled_settle : ∀ j : Json, j.settle.isSettled = true
  | .null | .bool _ | .str _ => by simp [settle, isSettled]
  | .int n => by simp only [settle]; exact isSettled_settleInt n
  | .float x => by simp only [settle]; exact isSettled_settleFloat x
  | .arr items => by simp only [settle, isSettled]; exact isSettled_settleItems items
  | .obj members => by
    simp only [settle, isSettled, Bool.and_eq_true, decide_eq_true_eq]
    refine ⟨increasing_sortMembers _, (isSettledMembers_iff _).2 fun m hm => ?_⟩
    exact (isSettledMembers_iff _).1 (isSettled_settleMembers members) m
      (mem_of_mem_sortMembers hm)

theorem isSettled_settleItems : ∀ items : List Json, isSettledItems (settleItems items) = true
  | [] => rfl
  | j :: items => by
    simp [settleItems, isSettledItems, isSettled_settle j, isSettled_settleItems items]

theorem isSettled_settleMembers :
    ∀ members : List (String × Json), isSettledMembers (settleMembers members) = true
  | [] => rfl
  | (_, j) :: members => by
    simp [settleMembers, isSettledMembers, isSettled_settle j, isSettled_settleMembers members]

end

end Json

/-- A JSON value as it is stored: objects have increasing keys, numbers are in their range. -/
structure Datum where
  json : Json
  settled : json.isSettled = true := by rfl
deriving DecidableEq

namespace Datum

/-- A value with its keys put in order and its numbers brought into range. -/
def ofJson (j : Json) : Datum := ⟨j.settle, j.isSettled_settle⟩

def null : Datum := ⟨.null, rfl⟩

def bool (b : Bool) : Datum := ⟨.bool b, rfl⟩

def int (n : Int) : Datum := ofJson (.int n)

def float (x : Float) : Datum := ofJson (.float x)

def str (s : String) : Datum := ⟨.str s, rfl⟩

instance : Inhabited Datum := ⟨null⟩

end Datum

end Concord
