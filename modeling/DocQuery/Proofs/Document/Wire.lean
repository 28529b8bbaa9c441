import DocQuery.Proofs.Document.Data
import DocQuery.Proofs.Json.Exact

/-!
# Rows on the wire

A row is written as one object, in which the free fields stand beside the members that every row may
have. Nothing keeps a free field from having the name of such a member, and then the text cannot be
decoded to the row again: the name stands twice, or the field is taken for the member. Apart from
this, only floating-point numbers can be missed.

* `Document.Clear` – no free field has the name of a member; `Document.clear_of_ofJson?` – this is so
  for every row that was decoded;
* `Document.ofJson?_toJson` – such a row is decoded from the tree it is written as;
* `Document.eq_toJson_of_reread` – a row can be decoded only from that tree;
* `Document.read_render_iff` – **when the text of a row is decoded to that row again.**
-/

namespace DocQuery

namespace Json

/-- Free members change nothing in the named ones. -/
theorem known?_append_of_absent {names : List String} {ms : List (String × Json)}
    (absent : ∀ name ∈ names, Record.get? name ms = none) (l : List (String × Json)) :
    known? names (l ++ ms) = known? names l := by
  have same : ∀ name ∈ names, (l ++ ms).filter (fun m => m.1 == name) =
      l.filter (fun m => m.1 == name) := by
    intro name hname
    have nothing : ms.filter (fun m => m.1 == name) = [] :=
      List.filter_eq_nil_iff.mpr fun m hm =>
        by simpa using Record.ne_of_get?_eq_none (absent name hname) m hm
    rw [List.filter_append, nothing, List.append_nil]
  have values : names.map (fun name => Record.get? name (l ++ ms)) =
      names.map fun name => Record.get? name l :=
    List.map_congr_left fun name hname => by rw [get?_eq_head?, get?_eq_head?, same name hname]
  refine Option.ext fun fs => ?_
  rw [known?_eq_some_iff, known?_eq_some_iff, values]
  refine and_congr_left' (forall₂_congr fun name hname => ?_)
  rw [same name hname]

/-- Named members are read one by one. -/
theorem known?_of_reread {names : List String} {ms ms' : List (String × Json)}
    {fs fs' : List (Option Json)} (read : rereadMembers ms = some ms')
    (found : known? names ms = some fs) (found' : known? names ms' = some fs') :
    fs' = fs.map fun field => field.bind reread := by
  obtain ⟨-, rfl⟩ := known?_eq_some_iff.mp found
  obtain ⟨-, rfl⟩ := known?_eq_some_iff.mp found'
  rw [List.map_map]
  exact List.map_congr_left fun name _ => get?_of_reread read name

/-- A floating-point number is decoded only from the text that is read exactly. -/
theorem eq_float_of_reread {x : Double} (finite : x.isFinite = true) {j : Json}
    (read : reread (.float x) = some j) (decoded : number? .double j = some x) : j = .float x := by
  obtain ⟨y, rfl, finite'⟩ := exists_float_of_word finite read
  have same := Option.some.inj decoded
  rw [Binary.convert_double finite'] at same
  rw [same]

/-- A record of what is decoded always. -/
theorem record?_some {α : Type} (f : Json → α) (ms : List (String × Json)) :
    record? (fun j => some (f j)) (.object ms) =
      some (Record.ofList (ms.map fun m => (m.1, f m.2))) := by
  have each : ms.mapM (fun m => (some (f m.2)).map fun a => (m.1, a)) =
      some (ms.map fun m => (m.1, f m.2)) :=
    mapM_eq_some_iff.mpr (List.forall₂_map_right_iff.mpr (List.forall₂_same.mpr fun _ _ => rfl))
  rw [record?, each]
  rfl

end Json

namespace Value

/-- An object is decoded member by member. -/
theorem ofJson_object (ms : List (String × Json)) :
    ofJson (.object ms) =
      .object (Record.ofList (ms.map fun m => (m.1, ofJson m.2))) := by
  rw [ofJson]
  congr 2
  induction ms with
  | nil => rfl
  | cons m ms ih => exact congrArg (_ :: ·) ih

end Value

namespace Document

variable {d : Document}

/-! ### Free fields -/

/-- No free field has the name of a member. -/
def Clear (d : Document) : Prop := ∀ name ∈ memberNames, d.fields.get? name = none

instance (d : Document) : Decidable d.Clear :=
  inferInstanceAs (Decidable (∀ name ∈ memberNames, d.fields.get? name = none))

/-- **A row that was decoded has no free field with the name of a member.** -/
theorem clear_of_ofJson? {j : Json} (h : ofJson? j = some d) : d.Clear := by
  obtain ⟨members, id, vector, dist, attributes, -, -, -, -, -, -, fields⟩ :=
    ofJson?_eq_some_iff.mp h
  intro name hname
  refine Option.eq_none_iff_forall_not_mem.mpr fun v found => ?_
  rw [fields] at found
  obtain ⟨m, hm, same⟩ := List.mem_map.mp (Record.mem_of_mem_ofList (Record.mem_of_get? found))
  obtain ⟨rfl, -⟩ := Prod.mk.inj same
  have free := (List.mem_filter.mp hm).2
  rw [List.contains_iff_mem.mpr hname] at free
  cases free

/-! ### The members that are written -/

/-- The members that a row may have, each with its name. -/
def named (d : Document) : List (String × Option Json) :=
  [("id", some d.id.toJson), ("vector", d.vector.map fun xs => .array (xs.map .single)),
    ("$dist", d.dist.map .float), ("attributes", d.attributes.map fun r => .object (members r))]

theorem toJson_eq (d : Document) :
    d.toJson = .object (Json.present d.named ++ members d.fields) := by
  simp [toJson, named, Option.map_map, Function.comp_def]

theorem toJson_object (r : Record Value) : (Value.object r).toJson = .object (members r) := by
  rw [Value.toJson]
  congr 1
  induction r with
  | nil => rfl
  | cons e r ih => exact congrArg (_ :: ·) ih

theorem get?_members (name : String) (r : Record Value) :
    Record.get? name (members r) = (r.get? name).map Value.toJson := by
  induction r with
  | nil => rfl
  | cons e r ih =>
    obtain ⟨n, v⟩ := e
    show (if name = n then some v.toJson else Record.get? name (members r)) = _
    rw [ih, Record.get?_cons, apply_ite (Option.map Value.toJson)]
    rfl

theorem named_nodup (d : Document) : (d.named.map Prod.fst).Nodup := by
  show memberNames.Nodup
  decide

/-- **The members of a row are found**, if no free field has their names. -/
theorem known?_toJson (clear : d.Clear) :
    Json.known? memberNames (Json.present d.named ++ members d.fields) =
      some (d.named.map Prod.snd) := by
  rw [Json.known?_append_of_absent]
  · exact Json.known?_present d.named_nodup
  · intro name hname
    rw [get?_members, clear name hname]
    rfl

/-- The other members are the free fields. -/
theorem freeFields_toJson (clear : d.Clear) :
    freeFields (Json.present d.named ++ members d.fields) = members d.fields := by
  have none_named : (Json.present d.named).filter (fun m => !memberNames.contains m.1) = [] := by
    refine List.filter_eq_nil_iff.mpr fun m hm => ?_
    have name : m.1 ∈ d.named.map Prod.fst := List.mem_map_of_mem (Json.mem_present.mp hm)
    have name : m.1 ∈ memberNames := name
    simp [name]
  have all_free : (members d.fields).filter (fun m => !memberNames.contains m.1) =
      members d.fields := by
    refine List.filter_eq_self.mpr fun m hm => ?_
    obtain ⟨e, he, rfl⟩ := List.mem_map.mp hm
    have free : e.1 ∉ memberNames := fun hname =>
      Record.ne_of_get?_eq_none (clear e.1 hname) e he rfl
    simp [free]
  rw [freeFields, List.filter_append, none_named, all_free, List.nil_append]

/-! ### Decoding -/

theorem isReadable_members {r : Record Value} (h : (Value.object r).isData = true) :
    (Json.object (members r)).isReadable = true := by
  rw [← toJson_object]
  exact Json.isReadable_of_isData _ (Value.isData_toJson _ h)

/-- What is written can stand in a text. -/
theorem isReadable_toJson (h : d.IsData) (flat : d.vector = none) :
    d.toJson.isReadable = true := by
  rw [toJson_eq]
  refine Json.haveReadable_iff.mpr fun m hm => ?_
  rcases List.mem_append.mp hm with hm | hm
  · have written := Json.mem_present.mp hm
    simp only [named, flat, List.mem_cons, Prod.mk.injEq, List.not_mem_nil, or_false] at written
    obtain ⟨-, hj⟩ | ⟨-, hj⟩ | ⟨-, hj⟩ | ⟨-, hj⟩ := written
    · rw [Option.some.inj hj]
      exact Json.isReadable_of_isData _ (Value.isData_toJson _ h.id)
    · cases hj
    · obtain ⟨x, hx, same⟩ := Option.map_eq_some_iff.mp hj.symm
      rw [← same]
      exact h.dist x hx
    · obtain ⟨r, hr, same⟩ := Option.map_eq_some_iff.mp hj.symm
      rw [← same]
      exact isReadable_members (h.attributes r hr)
  · exact Json.haveReadable_iff.mp (isReadable_members h.fields) m hm

/-- **A row is decoded from the tree it is written as**, if no free field has the name of a
member. -/
theorem ofJson?_toJson (h : d.IsData) (flat : d.vector = none) (clear : d.Clear) :
    ofJson? d.toJson = some d := by
  have values {r : Record Value} (hr : (Value.object r).isData = true) :
      Json.record? (fun j => some (Value.ofJson j)) (.object (members r)) = some r := by
    obtain ⟨sorted, data⟩ := Value.isData_object.mp hr
    exact Json.record?_map Value.toJson sorted fun e he =>
      congrArg some (Value.ofJson_toJson e.2 (data e he))
  rw [toJson_eq]
  refine ofJson?_eq_some_iff.mpr ⟨_, _, _, _, _, rfl, known?_toJson clear,
    (Value.ofJson_toJson d.id h.id).symm, ?_, ?_, ?_, ?_⟩
  · rw [flat]
    rfl
  · exact Json.optional?_map (fun x hx => congrArg some (Binary.convert_double (h.dist x hx)))
      fun _ => nofun
  · exact Json.optional?_map (fun r hr => values (h.attributes r hr)) fun _ => nofun
  · have fields := Value.ofJson_toJson (.object d.fields) h.fields
    rw [toJson_object, Value.ofJson_object] at fields
    rw [freeFields_toJson clear]
    exact (Value.object.inj fields).symm

/-- A record of values is decoded only from the tree it is written as. -/
theorem eq_members_of_reread {r : Record Value} (h : (Value.object r).isData = true)
    {ms : List (String × Json)} (read : Json.rereadMembers (members r) = some ms)
    (same : Record.ofList (ms.map fun m => (m.1, Value.ofJson m.2)) = r) : ms = members r := by
  have whole : Json.reread (Value.object r).toJson = some (.object ms) := by
    rw [toJson_object, Json.reread, read]
    rfl
  have eq := Value.toJson_of_reread h whole (by rw [Value.ofJson_object, same])
  rw [toJson_object] at eq
  exact Json.object.inj eq

/-- **A row is decoded only from the tree it is written as.** -/
theorem eq_toJson_of_reread (h : d.IsData) (flat : d.vector = none) {j : Json}
    (read : Json.reread d.toJson = some j) (decoded : ofJson? j = some d) : j = d.toJson := by
  have clear := clear_of_ofJson? decoded
  rw [toJson_eq] at read ⊢
  obtain ⟨ms, readMembers, rfl⟩ := Option.map_eq_some_iff.mp read
  obtain ⟨_, id, vector, dist, attributes, same, found, hid, -, hdist, hattributes, hfields⟩ :=
    ofJson?_eq_some_iff.mp decoded
  obtain rfl := Json.object.inj same
  -- the named members are those that were written, each of them read on its own
  have each := Json.known?_of_reread readMembers (known?_toJson clear) found
  simp only [named, List.map_cons, List.map_nil, List.cons.injEq, Option.bind_some] at each
  obtain ⟨idRead, -, distRead, attributesRead, -⟩ := each
  have free : Json.rereadMembers (members d.fields) = some (freeFields ms) := by
    rw [← freeFields_toJson clear]
    exact Json.rereadMembers_filter (fun name => !memberNames.contains name) readMembers
  have exact : Json.rereadMembers (Json.present d.named ++ members d.fields) =
      some (Json.present d.named ++ members d.fields) := by
    refine Json.rereadMembers_eq_self_iff_forall.mpr fun m hm => ?_
    rcases List.mem_append.mp hm with hm | hm
    · have written := Json.mem_present.mp hm
      simp only [named, flat, List.mem_cons, Prod.mk.injEq, List.not_mem_nil, or_false] at written
      obtain ⟨-, hj⟩ | ⟨-, hj⟩ | ⟨-, hj⟩ | ⟨-, hj⟩ := written
      · obtain rfl := Value.toJson_of_reread h.id idRead.symm hid.symm
        rw [Option.some.inj hj]
        exact idRead.symm
      · cases hj
      · obtain ⟨x, hx, same⟩ := Option.map_eq_some_iff.mp hj.symm
        rw [hx] at hdist distRead
        obtain ⟨j, rfl, decodedDist⟩ := Json.optional?_eq_some hdist
        obtain rfl := Json.eq_float_of_reread (h.dist x hx) distRead.symm decodedDist
        rw [← same]
        exact distRead.symm
      · obtain ⟨r, hr, same⟩ := Option.map_eq_some_iff.mp hj.symm
        rw [hr] at hattributes attributesRead
        obtain ⟨j, rfl, decodedBag⟩ := Json.optional?_eq_some hattributes
        obtain ⟨bag, readBag, rfl⟩ := Option.map_eq_some_iff.mp attributesRead.symm
        rw [Json.record?_some] at decodedBag
        obtain rfl := eq_members_of_reread (h.attributes r hr) readBag (Option.some.inj decodedBag)
        rw [← same]
        exact attributesRead.symm
    · have fields := eq_members_of_reread h.fields free hfields.symm
      rw [fields] at free
      exact Json.rereadMembers_eq_self_iff_forall.mp free m hm
  exact congrArg Json.object (Option.some.inj (readMembers.symm.trans exact))

/-- **When the text of a row is decoded to that row again**: no free field has the name of a member,
and every floating-point number is read as it was written. -/
theorem read_render_iff (h : d.IsData) (flat : d.vector = none)
    (shallow : d.toJson.depth ≤ Json.Build.maxDepth) :
    (Json.read? d.toJson.render).bind ofJson? = some d ↔
      d.Clear ∧ ∀ x ∈ d.toJson.floats, Json.ReadsBack x := by
  have readable := isReadable_toJson h flat
  rw [Json.read?_render readable shallow, ← Json.reread_eq_self_iff _ readable]
  constructor
  · intro decoded
    obtain ⟨j, read, decoded⟩ := Option.bind_eq_some_iff.mp decoded
    have exact := eq_toJson_of_reread h flat read decoded
    exact ⟨clear_of_ofJson? decoded, exact ▸ read⟩
  · rintro ⟨clear, read⟩
    rw [read, Option.bind_some, ofJson?_toJson h flat clear]

end Document

end DocQuery
