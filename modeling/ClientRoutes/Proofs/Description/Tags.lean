import ClientRoutes.Proofs.Description.Merging
import ClientRoutes.Proofs.Description.Walk

/-
  Documents without tags.

  What accessors find in a document are its parts: the document itself, the items of
  its lists and the values of its mappings, and a reference leads to a part again. So
  what is said of all parts holds of the operations and parameters of the document. A
  document that is read from JSON has no tags in any part.

  What is proved:
    1. `Part.get?`, `Part.resolve` — parts lead to parts.
    2. `untagged_ofJson` — there are no tags in JSON.
    3. `plainlyPlaced_of_untagged` — in a document without tags, names and places of
       parameters have none.
-/

namespace ClientRoutes

namespace Value

/-- What accessors find in a value, through tags and step by step. -/
inductive Part (root : Value) : Value → Prop where
  | root : Part root root
  | item {v w : Value} {items : List Value} (h : Part root v) (hitems : v.items? = some items)
      (hw : w ∈ items) : Part root w
  | entry {v key w : Value} {entries : List (Value × Value)} (h : Part root v)
      (hentries : v.entries? = some entries) (hw : (key, w) ∈ entries) : Part root w

theorem mem_of_find? {name : String} {entries : List (Value × Value)} {v : Value}
    (h : find? name entries = some v) : (.text name, v) ∈ entries := by
  fun_induction find? name entries with
  | case1 => cases h
  | case2 w rest =>
    obtain rfl := Option.some.inj h
    exact List.mem_cons_self
  | case3 s w rest hne ih => exact List.mem_cons_of_mem _ (ih h)
  | case4 e rest hkey ih => exact List.mem_cons_of_mem _ (ih h)

theorem get?_eq_bind (v : Value) (name : String) : v.get? name = v.entries?.bind (find? name) := by
  unfold get? entries?
  cases v.untag <;> rfl

section
variable {root v w : Value}

theorem Part.get? (h : Part root v) {name : String} (hw : v.get? name = some w) : Part root w := by
  rw [get?_eq_bind, Option.bind_eq_some_iff] at hw
  obtain ⟨entries, hentries, hw⟩ := hw
  exact h.entry hentries (mem_of_find? hw)

theorem Part.follow? (h : Part root v) {keys : List String}
    (hw : Pointer.follow? v keys = some w) : Part root w := by
  induction keys generalizing v with
  | nil =>
    obtain rfl := Option.some.inj hw
    exact h
  | cons key keys ih =>
    rw [Pointer.follow?, List.foldlM_cons] at hw
    obtain ⟨next, hnext, hw⟩ := Option.bind_eq_some_iff.1 hw
    exact ih (h.get? hnext) hw

theorem Part.resolve (h : Part root v) : Part root (Pointer.resolve root v) := by
  unfold Pointer.resolve
  split
  · next pointer hpointer =>
    cases hfollow : Pointer.follow? root (Pointer.keys pointer) with
    | none => exact h
    | some target => exact Part.root.follow? hfollow
  · exact h

end

/-- Whether no part of a value has a tag. -/
def Untagged (root : Value) : Prop := ∀ v, Part root v → Operation.isTagged v = false

theorem mem_ofItems {v : Value} {items : List Json} (h : v ∈ ofItems items) :
    ∃ j ∈ items, v = ofJson j := by
  induction items with
  | nil => simp [ofItems] at h
  | cons j rest ih =>
    rw [ofItems] at h
    rcases List.mem_cons.1 h with rfl | h
    · exact ⟨j, List.mem_cons_self, rfl⟩
    · obtain ⟨k, hk, hv⟩ := ih h
      exact ⟨k, List.mem_cons_of_mem _ hk, hv⟩

theorem mem_ofFields {e : Value × Value} {fields : List (String × Json)} (h : e ∈ ofFields fields) :
    ∃ f ∈ fields, e = (.text f.1, ofJson f.2) := by
  induction fields with
  | nil => simp [ofFields] at h
  | cons f rest ih =>
    rw [ofFields] at h
    rcases List.mem_cons.1 h with rfl | h
    · exact ⟨f, List.mem_cons_self, rfl⟩
    · obtain ⟨g, hg, he⟩ := ih h
      exact ⟨g, List.mem_cons_of_mem _ hg, he⟩

/-- The parts of a JSON text are JSON texts. -/
theorem exists_ofJson {j : Json} {v : Value} (h : Part (ofJson j) v) : ∃ k, v = ofJson k := by
  induction h with
  | root => exact ⟨j, rfl⟩
  | item _ hitems hw ih =>
    obtain ⟨k, rfl⟩ := ih
    cases k with
    | list items =>
      simp only [ofJson, items?, untag, Option.some.injEq] at hitems
      obtain ⟨k, -, hk⟩ := mem_ofItems (hitems ▸ hw)
      exact ⟨k, hk⟩
    | _ => simp [ofJson, items?, untag] at hitems
  | entry _ hentries hw ih =>
    obtain ⟨k, rfl⟩ := ih
    cases k with
    | record fields =>
      simp only [ofJson, entries?, untag, Option.some.injEq] at hentries
      obtain ⟨f, -, hf⟩ := mem_ofFields (hentries ▸ hw)
      exact ⟨f.2, (Prod.mk.inj hf).2⟩
    | _ => simp [ofJson, entries?, untag] at hentries

theorem untagged_ofJson (j : Json) : Untagged (ofJson j) := by
  intro v hv
  obtain ⟨k, rfl⟩ := exists_ofJson hv
  cases k <;> simp [ofJson, Operation.isTagged]

end Value

open Value

/-! ## Operations -/

namespace Description

/-- An operation and what its path shares are parts of the document. -/
theorem Spot.In.part {s : Spot} {root : Value} (h : s.In root) :
    Part root s.operation ∧ ∀ shared ∈ s.shared, Part root shared := by
  obtain ⟨paths, key, item, hpaths, hitem, -, target, members, memberKey, name, hstands, hshared,
    hmembers, hmember, -⟩ := h
  obtain ⟨v, hv, hentries⟩ := Option.bind_eq_some_iff.1 hpaths
  have hpart : Part root item :=
    (Part.root.get? hv).entry hentries (List.mem_of_getElem? hitem)
  have htarget : Part root target := Pointer.resolve_eq_iff.2 hstands ▸ hpart.resolve
  exact ⟨htarget.entry hmembers (List.mem_of_getElem? hmember),
    fun shared hs => htarget.get? (hshared.trans hs)⟩

end Description

namespace Operation

theorem part_of_mem_listed {root : Value} {list : Option Value}
    (hlist : ∀ v ∈ list, Part root v) {v : Value} (h : v ∈ listed root list) : Part root v := by
  obtain ⟨item, hitem, rfl⟩ := List.mem_map.1 h
  cases hitems : list.bind items? with
  | none => simp [hitems] at hitem
  | some items =>
    rw [hitems, Option.getD_some] at hitem
    obtain ⟨w, hw, hitems⟩ := Option.bind_eq_some_iff.1 hitems
    exact ((hlist w hw).item hitems hitem).resolve

theorem part_of_mem_entries {root : Value} {s : Description.Spot} (hs : s.In root) {v : Value}
    (h : v ∈ entries root s.operation s.shared) : Part root v := by
  obtain ⟨hoperation, hshared⟩ := hs.part
  rcases List.mem_append.1 h with h | h
  · exact part_of_mem_listed hshared h
  · exact part_of_mem_listed (fun w hw => hoperation.get? hw) h

theorem plainlyPlaced_of_untagged {root : Value} (hroot : Untagged root) {s : Description.Spot}
    (hs : s.In root) {v : Value} (h : v ∈ entries root s.operation s.shared) :
    PlainlyPlaced v := by
  intro key _
  cases hw : v.get? key with
  | none => rfl
  | some w => exact hroot w ((part_of_mem_entries hs h).get? hw)

end Operation

end ClientRoutes
