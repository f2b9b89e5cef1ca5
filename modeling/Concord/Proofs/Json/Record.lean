/-
What is written as a structure is read back. A member that is written is found by its
name, one that is left out is not, and reading the fields one after the other gives the
values they were written from (`record_of_reads`). The same for lists, for maps and for
structures that give their kind in a member.
-/
import Concord.Json.Decode
import Concord.Proofs.Order.KeyMap
import Concord.Proofs.Order.NameSet

namespace Concord.Json

open Concord.Json.Decode Concord.Json.Encode

variable {α β : Type}

/-! ## Members -/

theorem member?_append (a b : List (String × Json)) (key : String) :
    member? (a ++ b) key = (member? a key).or (member? b key) := by
  simp only [member?, List.find?_append, Option.map_or]

@[simp] theorem member?_member (name : String) (j : Json) (key : String) :
    member? (member name j) key = if name = key then some j else none := by
  by_cases h : name = key <;> simp [member?, member, h]

@[simp] theorem member?_memberUnless (absent : Bool) (name : String) (j : Json) (key : String) :
    member? (memberUnless absent name j) key =
      if name = key then (if absent then none else some j) else none := by
  cases absent <;> by_cases h : name = key <;> simp [member?, memberUnless, h]

/-- The members have some of the given names, in their order. -/
def Fits (members : List (String × Json)) (names : List String) : Prop :=
  (members.map Prod.fst).Sublist names

theorem fits_member (name : String) (j : Json) : Fits (member name j) [name] :=
  List.Sublist.refl _

theorem fits_memberUnless (absent : Bool) (name : String) (j : Json) :
    Fits (memberUnless absent name j) [name] := by
  cases absent
  · exact List.Sublist.refl _
  · exact List.nil_sublist _

theorem Fits.append {a b : List (String × Json)} {names others : List String} (ha : Fits a names)
    (hb : Fits b others) : Fits (a ++ b) (names ++ others) := by
  simp only [Fits, List.map_append]
  exact List.Sublist.append ha hb

theorem Fits.name_mem {members : List (String × Json)} {names : List String}
    (h : Fits members names) {m : String × Json} (hm : m ∈ members) : m.1 ∈ names :=
  h.subset (List.mem_map_of_mem hm)

/-- Members that fit different names repeat none of them. -/
theorem repeats_of_fits {members : List (String × Json)} {names : List String}
    (hnames : names.Nodup) (h : Fits members names) : repeats names members = false := by
  have hnodup : (members.map Prod.fst).Nodup := hnames.sublist h
  simp only [repeats, List.any_eq_false, decide_eq_true_eq, Nat.not_lt]
  intro name _
  calc members.countP (fun m => m.1 == name)
      = (members.map Prod.fst).count name := by
        simp [List.count, List.countP_map, Function.comp_def]
    _ ≤ 1 := List.nodup_iff_count.1 hnodup name

/-! ## Fields -/

/-- Reading some fields by name from the given members gives `a`. -/
def Reads (fields : Fields α) (members : List (String × Json)) (a : α) : Prop :=
  fields (.named members) = some (a, .named members)

theorem Reads.pure {members : List (String × Json)} (a : α) : Reads (Pure.pure a) members a := rfl

theorem Reads.bind {members : List (String × Json)} {first : Fields α} {next : α → Fields β}
    {a : α} {b : β} (hfirst : Reads first members a) (hnext : Reads (next a) members b) :
    Reads (first >>= next) members b := by
  have hrun : (first >>= next) (.named members) =
      (first (.named members)).bind fun r => next r.1 r.2 := rfl
  unfold Reads at hfirst hnext ⊢
  rw [hrun, hfirst]
  exact hnext

theorem reads_field {members : List (String × Json)} {name : String} {value : Decoder α} {j : Json}
    {a : α} (hvalue : value j = some a) (hfind : member? members name = some j) :
    Reads (field name value) members a := by
  simp [Reads, field, fieldWith, hfind, hvalue]

/-- A field that is left out only where its value is the one it has when it is missing. -/
theorem reads_fieldOr {members : List (String × Json)} {name : String} {value : Decoder α}
    {j : Json} {a missing : α} {absent : Bool} (hvalue : value j = some a)
    (habsent : absent = true → a = missing)
    (hfind : member? members name = if absent then none else some j) :
    Reads (fieldOr name missing value) members a := by
  cases absent with
  | false => simp_all [Reads, fieldOr, fieldWith]
  | true =>
    obtain rfl := habsent rfl
    simp_all [Reads, fieldOr, fieldWith]

/-- A field that may be missing and is written all the same. -/
theorem reads_fieldOr_written {members : List (String × Json)} {name : String} {value : Decoder α}
    {j : Json} {a missing : α} (hvalue : value j = some a) (hfind : member? members name = some j) :
    Reads (fieldOr name missing value) members a := by
  simp [Reads, fieldOr, fieldWith, hfind, hvalue]

/-- A field that may be missing, and is left out then. -/
theorem reads_fieldOption {members : List (String × Json)} {name : String} {value : Decoder α}
    {write : α → Json} (a : Option α) (hvalue : ∀ x, nullable value (write x) = some (some x))
    (hfind : member? members name = if a.isNone then none else some (option write a)) :
    Reads (fieldOption name value) members a := by
  refine reads_fieldOr ?_ Option.isNone_iff_eq_none.1 hfind
  cases a with
  | none => rfl
  | some x => exact hvalue x

/-- A structure that is written with its fields is read back. -/
theorem record_of_reads {names : List String} {fields : Fields α} {members : List (String × Json)}
    {a : α} (hnames : names.Nodup) (hfits : Fits members names) (h : Reads fields members a) :
    record names fields (.obj members) = some a := by
  unfold Reads at h
  simp [record, repeats_of_fits hnames hfits, h]

/-- A value that is written with its kind in front of its members is read back as that kind. -/
theorem tagged_of_decode {tag : String} {kinds names : List String} {numbered : Bool}
    {choose : String → Option (Decoder α)} {kind : String} {decode : Decoder α}
    {members : List (String × Json)} {a : α} (hchoose : choose kind = some decode)
    (htag : tag ∉ names) (hfits : Fits members names) (h : decode (.obj members) = some a) :
    tagged tag kinds numbered choose (.obj (member tag (.str kind) ++ members)) = some a := by
  have hne : ∀ m ∈ members, m.1 ≠ tag := fun m hm he => htag (he ▸ hfits.name_mem hm)
  have hnone : members.filter (fun m => m.1 == tag) = [] :=
    List.filter_eq_nil_iff.2 fun m hm => by simpa using hne m hm
  have hall : members.filter (fun m => m.1 != tag) = members :=
    List.filter_eq_self.2 fun m hm => by simpa using hne m hm
  simp only [tagged, member, List.cons_append, List.nil_append, List.filter_cons, beq_self_eq_true,
    ↓reduceIte, hnone, bne_self_eq_false, Bool.false_eq_true, hall, kind?, Option.bind_eq_bind,
    Option.bind_some, hchoose, h]

/-- The same for a structure that is read field by field. -/
theorem tagged_of_reads {tag : String} {kinds names : List String} {numbered : Bool}
    {choose : String → Option (Decoder α)} {kind : String} {fields : Fields α}
    {members : List (String × Json)} {a : α} (hchoose : choose kind = some (record names fields))
    (hnames : (tag :: names).Nodup) (hfits : Fits members names) (h : Reads fields members a) :
    tagged tag kinds numbered choose (.obj (member tag (.str kind) ++ members)) = some a :=
  tagged_of_decode hchoose (List.nodup_cons.1 hnames).1 hfits
    (record_of_reads (List.nodup_cons.1 hnames).2 hfits h)

/-! ## Strings, lists and maps -/

theorem string_str (s : String) : string (.str s) = some s := rfl

theorem bool_bool (b : Bool) : Decode.bool (.bool b) = some b := rfl

theorem variant_str (choose : String → Option α) (s : String) :
    variant choose (.str s) = choose s := rfl

theorem nullable_string (s : String) : nullable string (.str s) = some (some s) := rfl

theorem mapM_map_some {write : α → Json} {item : Decoder α} {as : List α}
    (h : ∀ a ∈ as, item (write a) = some a) : (as.map write).mapM item = some as := by
  induction as with
  | nil => rfl
  | cons a as ih =>
    simp only [List.map_cons, List.mapM_cons, h a (by simp), ih fun b hb => h b (by simp [hb])]
    rfl

theorem list_list {write : α → Json} {item : Decoder α} (as : List α)
    (h : ∀ a ∈ as, item (write a) = some a) : Decode.list item (Encode.list write as) = some as :=
  mapM_map_some h

theorem list_strings (ss : List String) : Decode.list string (strings ss) = some ss :=
  mapM_map_some fun _ _ => rfl

theorem map_map {write : α → Json} {value : Decoder α} (m : KeyMap α)
    (h : ∀ x ∈ m.members, value (write x.2) = some x.2) :
    Decode.map value (Encode.map write m) = some m := by
  have hmembers : (m.members.map fun x => (x.1, write x.2)).mapM
      (fun x => (value x.2).map (x.1, ·)) = some m.members := by
    generalize m.members = members at h
    induction members with
    | nil => rfl
    | cons x rest ih =>
      simp only [List.map_cons, List.mapM_cons, h x (by simp), ih fun y hy => h y (by simp [hy])]
      rfl
  simp only [Decode.map, Encode.map, hmembers, Option.map_some, KeyMap.ofList_members]

/-! ## Stored values and sets of names -/

mutual

/-- A value that is settled already stays as it is. -/
theorem settle_of_isSettled : ∀ {j : Json}, j.isSettled = true → j.settle = j
  | .null, _ | .bool _, _ | .str _, _ => by simp [settle]
  | .int n, h => by
    have hwhole : isWhole64 n = true := by simpa [isSettled] using h
    simp [settle, settleInt, hwhole]
  | .float x, h => by
    have hfinite : x.isFinite = true := by simpa [isSettled] using h
    simp [settle, settleFloat, hfinite]
  | .arr items, h => by
    simp only [isSettled] at h
    simp only [settle, settleItems_of_isSettled h]
  | .obj members, h => by
    simp only [isSettled, Bool.and_eq_true, decide_eq_true_eq] at h
    have hsorted : KeyMap.sortMembers members = members :=
      congrArg KeyMap.members (KeyMap.ofList_members ⟨members, h.1⟩)
    simp only [settle, settleMembers_of_isSettled h.2, hsorted]

theorem settleItems_of_isSettled :
    ∀ {items : List Json}, isSettledItems items = true → settleItems items = items
  | [], _ => rfl
  | j :: items, h => by
    simp only [isSettledItems, Bool.and_eq_true] at h
    simp only [settleItems, settle_of_isSettled h.1, settleItems_of_isSettled h.2]

theorem settleMembers_of_isSettled :
    ∀ {members : List (String × Json)}, isSettledMembers members = true →
      settleMembers members = members
  | [], _ => rfl
  | (_, j) :: members, h => by
    simp only [isSettledMembers, Bool.and_eq_true] at h
    simp only [settleMembers, settle_of_isSettled h.1, settleMembers_of_isSettled h.2]

end

theorem datum_json (d : Datum) : datum d.json = some d := by
  obtain ⟨j, hj⟩ := d
  simp [datum, Datum.ofJson, settle_of_isSettled hj]

theorem names_strings (s : NameSet) : names (strings s.names) = some s := by
  simp only [names, list_strings, Option.map_some, NameSet.ofList_names]

/-! ## Height -/

theorem heightMembers_append (a b : List (String × Json)) :
    heightMembers (a ++ b) = max (heightMembers a) (heightMembers b) := by
  induction a with
  | nil => simp [heightMembers]
  | cons m a ih =>
    obtain ⟨k, j⟩ := m
    simp [heightMembers, ih, Nat.max_assoc]

@[simp] theorem heightMembers_member (name : String) (j : Json) :
    heightMembers (member name j) = j.height := by
  simp [member, heightMembers]

theorem height_le_heightItems {items : List Json} {j : Json} (h : j ∈ items) :
    j.height ≤ heightItems items := by
  induction items with
  | nil => simp at h
  | cons i items ih =>
    simp only [heightItems]
    rcases List.mem_cons.1 h with rfl | h
    · exact Nat.le_max_left _ _
    · exact Nat.le_trans (ih h) (Nat.le_max_right _ _)

end Concord.Json
