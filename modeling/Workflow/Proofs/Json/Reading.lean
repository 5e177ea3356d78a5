import Workflow.Json.Reader

/-!
# Workflow.Proofs.Json.Reading — a written record is read back member by member

`Json.canonical` puts the members of an object in key order.  If no key is repeated, this is a
permutation of the members (`canonicalMembers_perm`), so a reader that looks its members up by name
finds what was written, each value in canonical form (`members?_canonical`).
-/

namespace Workflow.Json

/-! ### Look-ups -/

theorem lookup_eq_some_iff_mem {ms : List (String × Json)} (h : (ms.map Prod.fst).Nodup)
    {key : String} {value : Json} : ms.lookup key = some value ↔ (key, value) ∈ ms := by
  induction ms with
  | nil => simp
  | cons m rest ih =>
    obtain ⟨k, v⟩ := m
    have hrest := List.nodup_cons.1 h
    by_cases hk : key = k
    · subst hk
      have other : (key, value) ∉ rest := fun hmem => hrest.1 (List.mem_map.2 ⟨_, hmem, rfl⟩)
      simp [other, eq_comm]
    · have hk' : (key == k) = false := by simpa using hk
      simp [List.lookup_cons, hk', ih hrest.2, hk]

theorem lookup_perm {ms ms' : List (String × Json)} (perm : ms.Perm ms')
    (h : (ms.map Prod.fst).Nodup) (key : String) : ms.lookup key = ms'.lookup key := by
  have h' : (ms'.map Prod.fst).Nodup := (perm.map Prod.fst).nodup_iff.1 h
  apply Option.ext
  intro value
  rw [lookup_eq_some_iff_mem h, lookup_eq_some_iff_mem h', perm.mem_iff]

theorem lookup_map_canonical (ms : List (String × Json)) (key : String) :
    (ms.map fun m => (m.1, m.2.canonical)).lookup key = (ms.lookup key).map canonical := by
  induction ms with
  | nil => rfl
  | cons m rest ih =>
    obtain ⟨k, v⟩ := m
    simp only [List.map_cons, List.lookup_cons, ih]
    cases key == k <;> rfl

/-- The number of members with one key, if no key is repeated. -/
theorem length_filter_key {ms : List (String × Json)} (h : (ms.map Prod.fst).Nodup)
    (key : String) : (ms.filter (·.1 == key)).length ≤ 1 := by
  induction ms with
  | nil => simp
  | cons m rest ih =>
    have hrest := List.nodup_cons.1 h
    by_cases hk : m.1 = key
    · have none : rest.filter (·.1 == key) = [] := by
        rw [List.filter_eq_nil_iff]
        intro m' hm' heq
        have same : m'.1 = m.1 := (eq_of_beq heq).trans hk.symm
        exact hrest.1 (same ▸ List.mem_map_of_mem hm')
      simp [hk, none]
    · simpa [hk] using ih hrest.2

/-! ### The canonical form of an object -/

theorem insertMember_perm {key : String} {value : Json} {ms : List (String × Json)}
    (new : key ∉ ms.map Prod.fst) : (insertMember key value ms).Perm ((key, value) :: ms) := by
  induction ms with
  | nil => rfl
  | cons m rest ih =>
    obtain ⟨k, v⟩ := m
    obtain ⟨hk, hrest⟩ : key ≠ k ∧ key ∉ rest.map Prod.fst := by simpa using new
    unfold insertMember
    rw [if_neg hk]
    split
    · rfl
    · exact ((ih hrest).cons _).trans (List.Perm.swap ..)

theorem canonicalMembers_perm {ms done : List (String × Json)}
    (h : (ms.map Prod.fst ++ done.map Prod.fst).Nodup) :
    (canonicalMembers ms done).Perm (ms.map (fun m => (m.1, m.2.canonical)) ++ done) := by
  induction ms generalizing done with
  | nil =>
    rw [canonicalMembers]
    rfl
  | cons m rest ih =>
    obtain ⟨k, v⟩ := m
    rw [canonicalMembers]
    obtain ⟨hk, hrest⟩ : k ∉ rest.map Prod.fst ++ done.map Prod.fst ∧
        (rest.map Prod.fst ++ done.map Prod.fst).Nodup := List.nodup_cons.1 h
    have inserted : (insertMember k v.canonical done).Perm ((k, v.canonical) :: done) :=
      insertMember_perm fun hmem => hk (List.mem_append_right _ hmem)
    have keys := inserted.map Prod.fst
    have nodup : (rest.map Prod.fst ++ (insertMember k v.canonical done).map Prod.fst).Nodup := by
      refine ((keys.append_left _).nodup_iff).2 ?_
      exact List.perm_middle.nodup_iff.2 (List.nodup_cons.2 ⟨hk, hrest⟩)
    refine (ih nodup).trans ((inserted.append_left _).trans ?_)
    exact List.perm_middle

theorem canonicalMembers_perm_map {ms : List (String × Json)} (h : (ms.map Prod.fst).Nodup) :
    (canonicalMembers ms []).Perm (ms.map fun m => (m.1, m.2.canonical)) := by
  have nodup : (ms.map Prod.fst ++ List.map Prod.fst ([] : List (String × Json))).Nodup := by
    simpa using h
  simpa using canonicalMembers_perm nodup

/-- What a reader finds in the place of a member, by the value that was written for it. -/
def Member.ofWritten : Option Json → Member
  | some j => .given j.canonical
  | none => .absent

/-- Members are found by name if no key was written twice. -/
theorem members?_canonical {ms : List (String × Json)} (h : (ms.map Prod.fst).Nodup)
    (names : List String) : members? names (Json.object ms).canonical =
      some (names.map fun name => .ofWritten (ms.lookup name)) := by
  have perm := canonicalMembers_perm_map h
  have keys : ((canonicalMembers ms []).map Prod.fst).Nodup := by
    rw [(perm.map Prod.fst).nodup_iff, List.map_map]
    exact h
  have once : (names.any fun name =>
      decide (1 < ((canonicalMembers ms []).filter (·.1 == name)).length)) = false := by
    rw [List.any_eq_false]
    intro name _
    have := length_filter_key keys name
    simp only [decide_eq_true_eq]
    omega
  rw [canonical, members?, once]
  simp only [Bool.false_eq_true, if_false, Option.some.injEq]
  refine List.map_congr_left fun name _ => ?_
  rw [lookup_perm perm keys, lookup_map_canonical]
  cases ms.lookup name <;> rfl

/-! ### Fields that may be left out -/

/-- The members of an object whose fields are written if they have a value. -/
def present (fields : List (String × Option Json)) : List (String × Json) :=
  fields.filterMap fun f => f.2.map (f.1, ·)

theorem keys_present (fields : List (String × Option Json)) :
    ((present fields).map Prod.fst).Sublist (fields.map Prod.fst) := by
  induction fields with
  | nil => exact .slnil
  | cons f rest ih =>
    obtain ⟨k, o⟩ := f
    cases o with
    | none => exact ih.cons k
    | some j => exact ih.cons_cons k

theorem lookup_present {fields : List (String × Option Json)} (h : (fields.map Prod.fst).Nodup)
    {name : String} {o : Option Json} (hf : (name, o) ∈ fields) :
    (present fields).lookup name = o := by
  induction fields with
  | nil => cases hf
  | cons f rest ih =>
    obtain ⟨hk, hrest⟩ := List.nodup_cons.1 h
    rcases List.mem_cons.1 hf with rfl | later
    · cases o with
      | none =>
        have absent : ∀ m ∈ present rest, name ≠ m.1 := fun m hm heq =>
          hk (heq ▸ (keys_present rest).subset (List.mem_map_of_mem hm))
        exact List.lookup_eq_none_iff.2 fun m hm => bne_iff_ne.2 (absent m hm)
      | some j => exact List.lookup_cons_self
    · obtain ⟨k, o'⟩ := f
      have other : (name == k) = false := by
        rw [beq_eq_false_iff_ne]
        rintro rfl
        exact hk (List.mem_map.2 ⟨_, later, rfl⟩)
      cases o' with
      | none => exact ih hrest later
      | some j =>
        rw [← ih hrest later]
        exact List.lookup_cons.trans (by rw [other]; rfl)

/-- **A field is found by its name** if it was written, and is known to be absent if it was not. -/
theorem members?_present {fields : List (String × Option Json)} {names : List String}
    (nodup : names.Nodup) (h : fields.map Prod.fst = names) :
    members? names (Json.object (present fields)).canonical =
      some (fields.map fun f => .ofWritten f.2) := by
  subst h
  rw [members?_canonical ((keys_present fields).nodup nodup), List.map_map, Option.some.injEq]
  refine List.map_congr_left fun f hf => ?_
  rw [Function.comp, lookup_present nodup hf]

/-! ### Values -/

/-- What was written is read back: the reader takes the canonical form of the value, and does not
take null. -/
structure Restores {α : Type} (read : Json → Option α) (j : Json) (a : α) : Prop where
  reads : read j.canonical = some a
  strict : read .null = none

section Restores

variable {α : Type} {read : Json → Option α} {write : α → Json}

theorem Restores.ne_null {j : Json} {a : α} (h : Restores read j a) : j.canonical ≠ .null :=
  fun null => absurd ((null ▸ h.reads).symm.trans h.strict) nofun

/-- A field that is always written. -/
theorem Restores.required {j : Json} {a : α} (h : Restores read j a) :
    (Member.ofWritten (some j)).required read = some a := h.reads

/-- A field that is left out if it has the value that takes its place. -/
theorem orElse_ofWritten {o : Option Json} {a fallback : α}
    (given : ∀ j ∈ o, read j.canonical = some a) (absent : o = none → fallback = a) :
    (Member.ofWritten o).orElse read fallback = some a := by
  cases o with
  | none => exact congrArg some (absent rfl)
  | some j => exact given j rfl

/-- A field that is written even if it has the value that would take its place. -/
theorem Restores.defaulted {j : Json} {a : α} (h : Restores read j a) (fallback : α) :
    (Member.ofWritten (some j)).orElse read fallback = some a := h.reads

/-- A field that is left out if it has no value. -/
theorem Restores.orElse {o : Option α} (h : ∀ a ∈ o, Restores read (write a) a) :
    (Member.ofWritten (o.map write)).orElse (nullable? read) none = some o := by
  cases o with
  | none => rfl
  | some a =>
    have restores := h a rfl
    have plain : nullable? read (write a).canonical = (read (write a).canonical).map some := by
      have ne_null := restores.ne_null
      revert ne_null
      cases (write a).canonical with
      | null => exact fun ne_null => absurd rfl ne_null
      | _ => exact fun _ => rfl
    exact plain.trans (by rw [restores.reads]; rfl)

/-- A field that is null if it has no value. -/
theorem Restores.optional {o : Option α} (h : ∀ a ∈ o, Restores read (write a) a) :
    (Member.ofWritten (some (ofOption write o))).optional read = some o := by
  cases o with
  | none => rfl
  | some a =>
    have restores := h a rfl
    have plain : (Member.given (write a).canonical).optional read =
        (read (write a).canonical).map some := by
      have ne_null := restores.ne_null
      revert ne_null
      cases (write a).canonical with
      | null => exact fun ne_null => absurd rfl ne_null
      | _ => exact fun _ => rfl
    exact plain.trans (by rw [restores.reads]; rfl)

end Restores

theorem canonicalItems_eq_map (items : List Json) :
    canonicalItems items = items.map canonical := by
  induction items with
  | nil => rfl
  | cons item rest ih => rw [canonicalItems, ih, List.map_cons]

/-- A list is read back item by item. -/
theorem list?_restores {α : Type} {read : Json → Option α} {write : α → Json} {items : List α}
    (h : ∀ a ∈ items, read (write a).canonical = some a) :
    Restores (list? read) (.array (items.map write)) items := by
  refine ⟨?_, rfl⟩
  rw [canonical, canonicalItems_eq_map, List.map_map]
  change (items.map _).mapM read = some items
  induction items with
  | nil => rfl
  | cons a rest ih =>
    rw [List.map_cons, List.mapM_cons, Function.comp, h a List.mem_cons_self,
      ih fun b hb => h b (List.mem_cons_of_mem _ hb)]
    rfl

theorem text?_restores (s : String) : Restores text? (.string s) s := ⟨rfl, rfl⟩

theorem flag?_restores (b : Bool) : Restores flag? (.bool b) b := ⟨rfl, rfl⟩

theorem intWithin?_integer {low high n : Int} (h : low ≤ n ∧ n ≤ high) :
    intWithin? low high (.integer n) = some n := if_pos h

theorem word32?_restores (n : UInt32) : Restores word32? (.ofNat n.toNat) n := by
  refine ⟨?_, rfl⟩
  have fits : (0 : Int) ≤ n.toNat ∧ (n.toNat : Int) ≤ (UInt32.size - 1 : Nat) := by
    have := n.toNat_lt
    simp only [UInt32.size]
    omega
  have read : word32? (.integer n.toNat) = some n := by
    rw [word32?, natUpTo?, intWithin?_integer fits]
    simp
  exact read

theorem word64?_restores (n : UInt64) : Restores word64? (.ofNat n.toNat) n := by
  refine ⟨?_, rfl⟩
  have fits : (0 : Int) ≤ n.toNat ∧ (n.toNat : Int) ≤ (UInt64.size - 1 : Nat) := by
    have := n.toNat_lt
    simp only [UInt64.size]
    omega
  have read : word64? (.integer n.toNat) = some n := by
    rw [word64?, natUpTo?, intWithin?_integer fits]
    simp
  exact read

theorem int32?_restores (n : Int32) : Restores int32? (.integer n.toInt) n := by
  refine ⟨?_, rfl⟩
  have read : int32? (.integer n.toInt) = some n := by
    rw [int32?, intWithin?_integer ⟨n.minValue_le_toInt, n.toInt_le⟩]
    simp
  exact read

/-! ### Arbitrary values -/

/-- A value as it is kept: every part of it denotes something, and it is in canonical form. -/
structure IsKept (j : Json) : Prop where
  readable : j.isReadable
  canonical : j.canonical = j

theorem IsKept.any? {j : Json} (h : j.IsKept) : Json.any? j.canonical = some j := by
  rw [h.canonical, Json.any?, if_pos h.readable, h.canonical]

end Workflow.Json
