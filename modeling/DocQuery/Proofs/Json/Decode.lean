import DocQuery.Json.Decode
import DocQuery.Proofs.Record
import Mathlib.Data.List.Forall2
import Mathlib.Data.List.Nodup

/-!
# What the decoders find

* `Json.mapM_eq_some_iff` – decoding a list item by item;
* `Json.known?_eq_some_iff` – **named fields are found exactly if none of the names stands twice**,
  and then as in a map;
* `Json.known?_perm` – so that the order of members with different names does not matter;
* `Json.present` – the members that are written for optional fields, and `Json.known?_present` – **the
  same fields are found in them**.
-/

namespace DocQuery.Json

/-! ### Lists -/

section Lists

variable {α β : Type} {f : α → Option β} {as : List α} {bs : List β}

/-- A list is decoded item by item. -/
theorem mapM_eq_some_iff :
    as.mapM f = some bs ↔ List.Forall₂ (fun a b => f a = some b) as bs := by
  induction as generalizing bs with
  | nil => cases bs <;> simp
  | cons a as ih =>
    rw [List.mapM_cons, List.forall₂_cons_left_iff]
    constructor
    · intro h
      obtain ⟨b, hb, h⟩ := Option.bind_eq_some_iff.mp h
      obtain ⟨rest, hrest, h⟩ := Option.bind_eq_some_iff.mp h
      exact ⟨b, rest, hb, ih.mp hrest, (Option.some.inj h).symm⟩
    · rintro ⟨b, rest, hb, hrest, rfl⟩
      rw [hb, ih.mpr hrest]
      rfl

/-- What is encoded item by item is decoded item by item. -/
theorem mapM_map_eq_some {g : β → α} (h : ∀ b ∈ bs, f (g b) = some b) :
    (bs.map g).mapM f = some bs :=
  mapM_eq_some_iff.mpr (List.forall₂_map_left_iff.mpr (List.forall₂_same.mpr h))

/-- Every decoded item comes from an item. -/
theorem exists_of_mapM (h : as.mapM f = some bs) {b : β} (hb : b ∈ bs) :
    ∃ a ∈ as, f a = some b := by
  have items := mapM_eq_some_iff.mp h
  clear h
  induction items with
  | nil => cases hb
  | @cons a c _ _ head _ ih =>
    rcases List.mem_cons.mp hb with rfl | hb
    · exact ⟨a, List.mem_cons_self, head⟩
    · obtain ⟨a', ha', h⟩ := ih hb
      exact ⟨a', List.mem_cons_of_mem _ ha', h⟩

end Lists

/-! ### Named fields -/

variable {names : List String} {name : String} {members members' : List (String × Json)}
  {fs : List (Option Json)}

/-- The first member with a name is the one that is found. -/
theorem get?_eq_head? (name : String) (members : List (String × Json)) :
    Record.get? name members = (members.filter fun m => m.1 == name).head?.map Prod.snd := by
  induction members with
  | nil => rfl
  | cons m members ih =>
    obtain ⟨n, j⟩ := m
    rw [Record.get?_cons, List.filter_cons]
    by_cases hn : n = name
    · simp [hn]
    · simp [hn, Ne.symm hn, ih]

/-- **Named fields are found exactly if none of the names stands twice.** -/
theorem known?_eq_some_iff : known? names members = some fs ↔
    (∀ name ∈ names, (members.filter fun m => m.1 == name).length ≤ 1) ∧
      fs = names.map fun name => Record.get? name members := by
  rw [known?, mapM_eq_some_iff]
  induction names generalizing fs with
  | nil => simp
  | cons name names ih =>
    rw [List.forall₂_cons_left_iff, List.forall_mem_cons, List.map_cons, get?_eq_head?]
    constructor
    · rintro ⟨field, rest, hfield, hrest, rfl⟩
      obtain ⟨others, rfl⟩ := ih.mp hrest
      split at hfield <;> cases hfield
      case h_1 none => exact ⟨⟨by simp [none], others⟩, by simp [none]⟩
      case h_2 one => exact ⟨⟨by simp [one], others⟩, by simp [one]⟩
    · rintro ⟨⟨once, others⟩, rfl⟩
      refine ⟨_, _, ?_, ih.mpr ⟨others, rfl⟩, rfl⟩
      generalize (members.filter fun m => m.1 == name) = found at once ⊢
      match found, once with
      | [], _ => rfl
      | [_], _ => rfl

/-- What is found is the value of a member. -/
theorem exists_of_known? (h : known? names members = some fs) {j : Json} (hj : some j ∈ fs) :
    ∃ name ∈ names, (name, j) ∈ members := by
  obtain ⟨-, rfl⟩ := known?_eq_some_iff.mp h
  obtain ⟨name, hname, found⟩ := List.mem_map.mp hj
  exact ⟨name, hname, Record.mem_of_get? found⟩

theorem filter_length_le_one (distinct : (members.map Prod.fst).Nodup) (name : String) :
    (members.filter fun m => m.1 == name).length ≤ 1 := by
  have counted := List.nodup_iff_count_le_one.mp distinct name
  rwa [List.count, List.countP_map, List.countP_eq_length_filter] at counted

/-- Members with different names are found as in a map. -/
theorem known?_of_nodup (distinct : (members.map Prod.fst).Nodup) :
    known? names members = some (names.map fun name => Record.get? name members) :=
  known?_eq_some_iff.mpr ⟨fun name _ => filter_length_le_one distinct name, rfl⟩

/-- **The order of members with different names does not matter.** -/
theorem known?_perm (distinct : (members.map Prod.fst).Nodup) (h : members.Perm members') :
    known? names members = known? names members' := by
  rw [known?_of_nodup distinct, known?_of_nodup ((h.map Prod.fst).nodup_iff.mp distinct)]
  refine congrArg some (List.map_congr_left fun name _ => ?_)
  have same := h.filter fun m => m.1 == name
  rw [get?_eq_head?, get?_eq_head?]
  have once := filter_length_le_one distinct name
  generalize (members.filter fun m => m.1 == name) = found at same once ⊢
  generalize (members'.filter fun m => m.1 == name) = found' at same ⊢
  match found, once, same with
  | [], _, same => rw [List.Perm.nil_eq same]
  | [m], _, same => rw [List.singleton_perm.mp same]

/-! ### Optional fields -/

/-- The members that are written for optional fields: absent ones are left out. -/
def present (fields : List (String × Option Json)) : List (String × Json) :=
  fields.filterMap fun f => f.2.map fun j => (f.1, j)

@[simp] theorem present_nil : present [] = [] := rfl

@[simp]
theorem present_cons (f : String × Option Json) (fields : List (String × Option Json)) :
    present (f :: fields) = (f.2.map fun j => (f.1, j)).toList ++ present fields := by
  rw [present, List.filterMap_cons]
  cases f.2 <;> rfl

theorem mem_present {fields : List (String × Option Json)} {m : String × Json} :
    m ∈ present fields ↔ (m.1, some m.2) ∈ fields := by
  rw [present, List.mem_filterMap]
  constructor
  · rintro ⟨⟨name, field⟩, hf, h⟩
    obtain ⟨j, rfl, rfl⟩ := Option.map_eq_some_iff.mp h
    exact hf
  · exact fun h => ⟨_, h, rfl⟩

/-- A name that stands once stands at most once among the members that are written. -/
theorem present_nodup {fields : List (String × Option Json)}
    (distinct : (fields.map Prod.fst).Nodup) : ((present fields).map Prod.fst).Nodup := by
  refine distinct.sublist ?_
  induction fields with
  | nil => exact .slnil
  | cons f fields ih =>
    obtain ⟨name, field⟩ := f
    have rest := ih (List.nodup_cons.mp distinct).2
    rw [present_cons]
    cases field with
    | none => exact rest.cons name
    | some j => exact rest.cons_cons name

/-- **The fields that were written are found.** -/
theorem known?_present {fields : List (String × Option Json)}
    (distinct : (fields.map Prod.fst).Nodup) :
    known? (fields.map Prod.fst) (present fields) = some (fields.map Prod.snd) := by
  rw [known?_of_nodup (present_nodup distinct), List.map_map]
  refine congrArg some (List.map_congr_left fun f hf => ?_)
  obtain ⟨name, field⟩ := f
  show Record.get? name (present fields) = field
  cases field with
  | some j => exact Record.get?_of_mem_of_nodup (present_nodup distinct) (mem_present.mpr hf)
  | none =>
    refine Option.eq_none_iff_forall_not_mem.mpr fun j found => ?_
    have written := mem_present.mp (Record.mem_of_get? found)
    cases List.inj_on_of_nodup_map distinct written hf rfl

/-! ### Decoding fields -/

section Fields

variable {α : Type} {decode : Json → Option α} {a : α}

/-- A field that is present is decoded. -/
theorem optional?_eq_some {field : Option Json}
    (h : optional? decode field = some (some a)) : ∃ j, field = some j ∧ decode j = some a := by
  unfold optional? at h
  split at h
  case h_1 => cases h
  case h_2 j present =>
    obtain ⟨b, hb, same⟩ := Option.map_eq_some_iff.mp h
    obtain rfl := Option.some.inj same
    refine ⟨j, ?_, hb⟩
    unfold nonNull at present
    split at present
    · cases present
    · exact present

/-- An optional field that is written is decoded. -/
theorem optional?_map {encode : α → Json} {o : Option α}
    (h : ∀ a ∈ o, decode (encode a) = some a) (notNull : ∀ a, encode a ≠ .null) :
    optional? decode (o.map encode) = some o := by
  cases o with
  | none => rfl
  | some a =>
    have kept : nonNull (some (encode a)) = some (encode a) := by
      unfold nonNull
      split
      case h_1 same => exact absurd (Option.some.inj same) (notNull a)
      case h_2 => rfl
    rw [Option.map_some, optional?, kept]
    exact congrArg (Option.map some) (h a rfl)

/-- A record that is written value by value is decoded. -/
theorem record?_map (encode : α → Json) {r : Record α} (sorted : r.Sorted)
    (h : ∀ e ∈ r, decode (encode e.2) = some e.2) :
    record? decode (.object (r.map fun e => (e.1, encode e.2))) = some r := by
  have members : (r.map fun e => (e.1, encode e.2)).mapM
      (fun m : String × Json => (decode m.2).map fun a => (m.1, a)) = some r :=
    mapM_map_eq_some fun e he => by rw [h e he]; rfl
  rw [record?, members, Option.map_some, Record.ofList_of_sorted sorted]

/-- A record holds what its members are decoded to. -/
theorem record?_eq_some {r : Record α} {j : Json} (h : record? decode j = some r) :
    ∃ members, j = .object members ∧ r.Sorted ∧
      ∀ e ∈ r, ∃ m ∈ members, m.1 = e.1 ∧ decode m.2 = some e.2 := by
  cases j with
  | object members =>
    obtain ⟨pairs, decoded, rfl⟩ := Option.map_eq_some_iff.mp h
    refine ⟨members, rfl, Record.sorted_ofList _, fun e he => ?_⟩
    obtain ⟨m, hm, same⟩ := exists_of_mapM decoded (Record.mem_of_mem_ofList he)
    obtain ⟨b, hb, rfl⟩ := Option.map_eq_some_iff.mp same
    exact ⟨m, hm, rfl, hb⟩
  | _ => cases h

end Fields

end DocQuery.Json
