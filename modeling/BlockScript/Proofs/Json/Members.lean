import Mathlib.Data.List.Nodup
import BlockScript.Json.Record
import BlockScript.Proofs.Json.RoundTrip

/-!
# Records with members that may be missing

A record is written from slots: every declared name in its order, with a value or with nothing.
Whatever is missing, each name is read as its slot says, and a tag that is no name of the record can
be put in front of it and taken off again.
-/
namespace BlockScript.Json
set_option autoImplicit false

variable {α : Type}

/-- No object has two members of one name. -/
inductive Distinct : Json → Prop where
  | null : Distinct null
  | bool (value : Bool) : Distinct (bool value)
  | int (value : Int) : Distinct (int value)
  | float (value : Float) : Distinct (float value)
  | string (value : String) : Distinct (string value)
  | array {items : List Json} (hitems : ∀ item ∈ items, Distinct item) : Distinct (array items)
  | object {members : List (String × Json)} (hnames : (members.map Prod.fst).Nodup)
    (hmembers : ∀ entry ∈ members, Distinct entry.2) : Distinct (object members)
  | unread : Distinct unread

/-- A value that can be read back and that has no name twice. -/
structure Tidy (depth : Nat) (json : Json) : Prop where
  legible : json.Legible depth
  distinct : json.Distinct

theorem isWhole_of_legible {depth : Nat} {json : Json} (h : json.Legible depth) :
    json.isWhole = true := by
  induction h with
  | null => rfl
  | bool => rfl
  | int => rfl
  | string => rfl
  | @array _ items hitems ih =>
    change wholeItems items = true
    clear hitems
    induction items with
    | nil => rfl
    | cons item rest ih' =>
      obtain ⟨hitem, hrest⟩ := List.forall_mem_cons.1 ih
      rw [wholeItems, hitem, ih' hrest]
      rfl
  | @object _ members hmembers ih =>
    change wholeMembers members = true
    clear hmembers
    induction members with
    | nil => rfl
    | cons entry rest ih' =>
      obtain ⟨hentry, hrest⟩ := List.forall_mem_cons.1 ih
      rw [wholeMembers, hentry, ih' hrest]
      rfl

theorem list?_map {encode : α → Json} {decode : Json → Option α} {values : List α}
    (hread : ∀ value ∈ values, decode (encode value) = some value) :
    list? decode (array (values.map encode)) = some values := by
  unfold list?
  dsimp only
  induction values with
  | nil => rfl
  | cons first rest ih =>
    obtain ⟨hfirst, hrest⟩ := List.forall_mem_cons.1 hread
    rw [List.map_cons, List.mapM_cons, hfirst, ih hrest]
    rfl

/-! ## Slots -/

/-- The members that are there. -/
def present (slots : List (String × Option Json)) : List (String × Json) :=
  slots.filterMap fun slot => slot.2.map (slot.1, ·)

section

variable {slots : List (String × Option Json)}

theorem mem_present {name : String} {json : Json} :
    (name, json) ∈ present slots ↔ (name, some json) ∈ slots := by
  unfold present
  rw [List.mem_filterMap]
  constructor
  · rintro ⟨⟨other, _ | value⟩, hslot, heq⟩
    · cases heq
    · cases heq
      exact hslot
  · intro hslot
    exact ⟨_, hslot, rfl⟩

theorem names_present : ((present slots).map Prod.fst).Sublist (slots.map Prod.fst) := by
  induction slots with
  | nil => exact .slnil
  | cons slot rest ih =>
    obtain ⟨name, _ | json⟩ := slot
    · exact ih.cons name
    · exact ih.cons_cons name

end

theorem member?_eq (name : String) (encode : α → Json) (value : Option α) :
    member? name encode value = present [(name, value.map encode)] := by
  cases value <;> rfl

/-- The slot of a list that is left out when it is empty. -/
def notesSlot (notes : List String) : Option Json :=
  if notes.isEmpty then none else some (ofStrings notes)

theorem notesMember_eq (name : String) (notes : List String) :
    notesMember name notes = present [(name, notesSlot notes)] := by
  cases notes <;> rfl

/-- The slots are those of a record with these names. -/
structure Fills (names : List String) (slots : List (String × Option Json)) : Prop where
  names_eq : slots.map Prod.fst = names
  nodup : names.Nodup

theorem lookup_of_mem {members : List (String × α)} (hnodup : (members.map Prod.fst).Nodup)
    {name : String} {value : α} (h : (name, value) ∈ members) :
    members.lookup name = some value := by
  induction members with
  | nil => cases h
  | cons entry rest ih =>
    rw [List.map_cons, List.nodup_cons] at hnodup
    rw [Dict.lookup_cons_if]
    rcases List.mem_cons.1 h with rfl | hrest
    · exact if_pos rfl
    · rw [if_neg]
      · exact ih hnodup.2 hrest
      · rintro rfl
        exact hnodup.1 (List.mem_map.2 ⟨_, hrest, rfl⟩)

theorem lookup_of_not_mem {members : List (String × α)} {name : String}
    (h : name ∉ members.map Prod.fst) : members.lookup name = none := by
  rw [List.lookup_eq_none_iff]
  intro entry hentry
  rw [bne_iff_ne]
  rintro rfl
  exact h (List.mem_map_of_mem hentry)

section

variable {names : List String} {own others : List (String × Json)}

theorem filter_own (hown : ∀ entry ∈ own, entry.1 ∈ names)
    (hothers : ∀ entry ∈ others, entry.1 ∉ names) :
    ((own ++ others).filter fun (name, _) => names.contains name) = own := by
  rw [List.filter_append, List.filter_eq_self.2, List.filter_eq_nil_iff.2, List.append_nil]
  · exact fun entry hentry => mt List.contains_iff_mem.1 (hothers entry hentry)
  · exact fun entry hentry => List.contains_iff_mem.2 (hown entry hentry)

/-- What is left of the members without those of a record. -/
theorem filter_others (hown : ∀ entry ∈ own, entry.1 ∈ names)
    (hothers : ∀ entry ∈ others, entry.1 ∉ names) :
    ((own ++ others).filter fun (name, _) => !names.contains name) = others := by
  rw [List.filter_append, List.filter_eq_nil_iff.2, List.filter_eq_self.2, List.nil_append]
  · intro entry hentry
    simpa using hothers entry hentry
  · intro entry hentry
    simpa using hown entry hentry

/-- Members of a record, and after them members of other names. -/
theorem record?_append (hown : ∀ entry ∈ own, entry.1 ∈ names)
    (hnodup : (own.map Prod.fst).Nodup) (hothers : ∀ entry ∈ others, entry.1 ∉ names) :
    record? names (object (own ++ others)) = some ⟨own⟩ := by
  unfold record?
  dsimp only
  rw [filter_own hown hothers, if_pos hnodup]

end

/-- A tag in front of members that have other names. -/
theorem tagged?_cons {tag choice : String} {members : List (String × Json)}
    (hfree : ∀ entry ∈ members, entry.1 ≠ tag) (hwhole : (object members).isWhole = true)
    (choices : List String) (stage : Stage) :
    tagged? tag choices stage (object ((tag, string choice) :: members)) =
      some (choice, object members) := by
  have hwhole' : (object ((tag, string choice) :: members)).whole? =
      some (object ((tag, string choice) :: members)) := if_pos hwhole
  have htag : (((tag, string choice) :: members).filter fun (name, _) => name = tag) =
      [(tag, string choice)] := by
    rw [List.filter_cons, if_pos (decide_eq_true rfl), List.filter_eq_nil_iff.2]
    exact fun entry hentry => mt of_decide_eq_true (hfree entry hentry)
  have hrest : (((tag, string choice) :: members).filter fun (name, _) => name ≠ tag) =
      members := by
    rw [List.filter_cons, if_neg (by simp), List.filter_eq_self.2]
    exact fun entry hentry => decide_eq_true (hfree entry hentry)
  unfold tagged?
  rw [hwhole']
  dsimp only [bind, Option.bind]
  rw [htag, hrest]
  rfl

namespace Fills

variable {names : List String} {slots : List (String × Option Json)}

theorem nodup_present (h : Fills names slots) : ((present slots).map Prod.fst).Nodup :=
  (h.names_eq ▸ h.nodup).sublist names_present

theorem mem_names (h : Fills names slots) : ∀ entry ∈ present slots, entry.1 ∈ names := by
  intro entry hentry
  rw [← h.names_eq]
  exact names_present.mem (List.mem_map_of_mem hentry)

theorem record? (h : Fills names slots) :
    Json.record? names (object (present slots)) = some ⟨present slots⟩ := by
  have hrecord : Json.record? names (object (present slots ++ [])) = some ⟨present slots⟩ :=
    record?_append h.mem_names h.nodup_present nofun
  rwa [List.append_nil] at hrecord

theorem required? (h : Fills names slots) (name : String) {json : Json}
    (hslot : (name, some json) ∈ slots) {decode : Json → Option α} {a : α}
    (hread : decode json = some a) :
    (Fields.mk (present slots)).required? name decode = some a := by
  unfold Fields.required?
  rw [lookup_of_mem h.nodup_present (mem_present.2 hslot)]
  exact hread

/-- A slot that holds nothing is read as what is missing. -/
theorem missing (h : Fills names slots) {name : String} (hslot : (name, none) ∈ slots)
    (standard : α) (decode : Json → Option α) :
    (Fields.mk (present slots)).optional? name standard decode = some standard := by
  have hname : name ∉ (present slots).map Prod.fst := by
    intro hmem
    obtain ⟨⟨_, json⟩, hentry, rfl⟩ := List.mem_map.1 hmem
    have hboth := List.inj_on_of_nodup_map (h.names_eq ▸ h.nodup) hslot (mem_present.1 hentry) rfl
    cases hboth
  unfold Fields.optional?
  rw [lookup_of_not_mem hname]

theorem given (h : Fills names slots) {name : String} {json : Json}
    (hslot : (name, some json) ∈ slots) (standard : α) (decode : Json → Option α) :
    (Fields.mk (present slots)).optional? name standard decode = decode json := by
  unfold Fields.optional?
  rw [lookup_of_mem h.nodup_present (mem_present.2 hslot)]

/-- An optional member is read back, also if it is not there. -/
theorem optional? (h : Fills names slots) (name : String) {encode : α → Json} (value : Option α)
    (hslot : (name, value.map encode) ∈ slots) {decode : Json → Option (Option α)}
    (hread : ∀ a ∈ value, decode (encode a) = some (some a)) :
    (Fields.mk (present slots)).optional? name none decode = some value := by
  cases value with
  | none => exact h.missing hslot none decode
  | some a => exact (h.given hslot none decode).trans (hread a rfl)

theorem notes (h : Fills names slots) (name : String) {notes : List String}
    (hslot : (name, notesSlot notes) ∈ slots) :
    (Fields.mk (present slots)).optional? name [] (list? string?) = some notes := by
  cases notes with
  | nil => exact h.missing hslot [] _
  | cons first rest =>
    exact (h.given hslot [] _).trans (list?_map fun _ _ => rfl)

end Fills

/-! ## Tidy records -/

section

variable {depth : Nat}

theorem tidy_string (value : String) : Tidy depth (string value) := ⟨.string value, .string value⟩

theorem tidy_bool (value : Bool) : Tidy depth (bool value) := ⟨.bool value, .bool value⟩

theorem tidy_nat {n : Nat} (h : n < UInt64.size) : Tidy depth (int n) := by
  refine ⟨.int ?_ (Int.ofNat_lt.2 h), .int n⟩
  exact Int.le_trans (by decide) (Int.natCast_nonneg n)

theorem tidy_int64 (n : Int64) : Tidy depth (int n.toInt) := by
  have hlt := n.toInt_lt
  refine ⟨.int n.minValue_le_toInt ?_, .int _⟩
  unfold UInt64.size
  omega

theorem tidy_array {items : List Json} (h : ∀ item ∈ items, Tidy depth item) :
    Tidy (depth + 1) (array items) :=
  ⟨.array fun item hitem => (h item hitem).legible,
    .array fun item hitem => (h item hitem).distinct⟩

/-- What is in a slot, if there is anything. -/
def TidySlot (depth : Nat) (slot : Option Json) : Prop := ∀ json ∈ slot, Tidy depth json

theorem TidySlot.some {json : Json} (h : Tidy depth json) : TidySlot depth (Option.some json) := by
  rintro _ ⟨⟩
  exact h

theorem TidySlot.map {encode : α → Json} {value : Option α}
    (h : ∀ a ∈ value, Tidy depth (encode a)) : TidySlot depth (value.map encode) := by
  intro json hjson
  obtain ⟨a, ha, rfl⟩ := Option.map_eq_some_iff.1 hjson
  exact h a ha

theorem TidySlot.notes (notes : List String) : TidySlot (depth + 1) (notesSlot notes) := by
  intro json hjson
  cases notes with
  | nil => cases hjson
  | cons first rest =>
    cases hjson
    refine tidy_array fun item hitem => ?_
    obtain ⟨text, -, rfl⟩ := List.mem_map.1 hitem
    exact tidy_string text

/-- Slots of a record that can be read back. -/
structure Written (depth : Nat) (names : List String) (slots : List (String × Option Json)) :
    Prop extends Fills names slots where
  tidySlots : ∀ slot ∈ slots, TidySlot depth slot.2

namespace Written

variable {names : List String} {slots : List (String × Option Json)}

theorem tidy (h : Written depth names slots) : Tidy (depth + 1) (object (present slots)) := by
  have hmembers : ∀ entry ∈ present slots, Tidy depth entry.2 :=
    fun entry hentry => h.tidySlots _ (mem_present.1 hentry) entry.2 rfl
  exact ⟨.object fun entry hentry => (hmembers entry hentry).legible,
    .object h.nodup_present fun entry hentry => (hmembers entry hentry).distinct⟩

theorem nil : Written depth [] [] := ⟨⟨rfl, .nil⟩, List.forall_mem_nil _⟩

/-- A tag that is no name of the record can be put in front of it. -/
theorem withTag (h : Written depth names slots) {tag : String} (htag : tag ∉ names)
    (choice : String) :
    Written depth (tag :: names) ((tag, some (string choice)) :: slots) where
  names_eq := congrArg (tag :: ·) h.names_eq
  nodup := List.nodup_cons.2 ⟨htag, h.nodup⟩
  tidySlots := List.forall_mem_cons.2 ⟨.some (tidy_string choice), h.tidySlots⟩

/-- The tag is taken off again. -/
theorem tagged? (h : Written depth names slots) (tag : String) (htag : tag ∉ names)
    (choice : String) (choices : List String) (stage : Stage) :
    Json.tagged? tag choices stage (Json.withTag tag choice (object (present slots))) =
      some (choice, object (present slots)) := by
  refine tagged?_cons (fun entry hentry => ?_) (isWhole_of_legible h.tidy.legible) choices stage
  rintro rfl
  exact htag (h.mem_names entry hentry)

end Written

end

end BlockScript.Json
