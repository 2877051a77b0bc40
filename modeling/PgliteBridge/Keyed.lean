import Mathlib.Data.List.Perm.Subperm
import Mathlib.Data.List.Nodup

/-!
# Lists with keys

Looking an element up by a key that no other element has.
-/

namespace Keyed

variable {α β : Type}

theorem lookup_of_mem [BEq α] [LawfulBEq α] {l : List (α × β)} {a : α} {b : β} (h : (l.map Prod.fst).Nodup)
    (hmem : (a, b) ∈ l) : l.lookup a = some b := by
  induction l with
  | nil => cases hmem
  | cons entry rest ih =>
    obtain ⟨key, value⟩ := entry
    rw [List.map_cons, List.nodup_cons] at h
    rcases List.mem_cons.mp hmem with he | hrest
    · obtain ⟨rfl, rfl⟩ := Prod.mk.inj he
      exact List.lookup_cons_self
    · have hne : a ≠ key := fun he => h.1 (List.mem_map.mpr ⟨(a, b), hrest, he⟩)
      rw [List.lookup_cons, beq_false_of_ne hne]
      exact ih h.2 hrest

/-- A lookup in a table of a function. -/
theorem lookup_graph [BEq α] [LawfulBEq α] {f : α → β} {l : List α} {a : α} (h : a ∈ l) :
    (l.map fun b => (b, f b)).lookup a = some (f a) := by
  induction l with
  | nil => cases h
  | cons b rest ih =>
    by_cases hab : a = b
    · subst hab
      exact List.lookup_cons_self
    · rw [List.map_cons, List.lookup_cons, beq_false_of_ne hab]
      exact ih ((List.mem_cons.mp h).resolve_left hab)

theorem find?_of_mem [DecidableEq β] {l : List α} {key : α → β} {a : α} (h : (l.map key).Nodup) (ha : a ∈ l) :
    l.find? (key · == key a) = some a := by
  induction l with
  | nil => cases ha
  | cons b rest ih =>
    rw [List.map_cons, List.nodup_cons] at h
    rcases List.mem_cons.mp ha with rfl | hrest
    · simp
    · have hne : key b ≠ key a := fun he => h.1 (he ▸ List.mem_map_of_mem hrest)
      rw [List.find?_cons_of_neg (by simpa using hne)]
      exact ih h.2 hrest

/-- Only one element has a part. -/
theorem flatMap_eq_of_unique {γ : Type} {l : List α} {key : α → γ} {f : α → List β} {a : α} (h : (l.map key).Nodup)
    (ha : a ∈ l) (hother : ∀ b ∈ l, key b ≠ key a → f b = []) : l.flatMap f = f a := by
  induction l with
  | nil => cases ha
  | cons b rest ih =>
    rw [List.map_cons, List.nodup_cons] at h
    rw [List.flatMap_cons]
    rcases List.mem_cons.mp ha with rfl | hrest
    · have hnil : rest.flatMap f = [] := by
        refine List.flatMap_eq_nil_iff.mpr fun c hc => hother c (List.mem_cons_of_mem _ hc) fun he => h.1 ?_
        exact he ▸ List.mem_map_of_mem hc
      rw [hnil, List.append_nil]
    · have hne : key b ≠ key a := fun he => h.1 (he ▸ List.mem_map_of_mem hrest)
      rw [hother b List.mem_cons_self hne, List.nil_append]
      exact ih h.2 hrest fun c hc => hother c (List.mem_cons_of_mem _ hc)

theorem length_le_flatMap {f : α → List β} {l : List α} {a : α} (ha : a ∈ l) :
    (f a).length ≤ (l.flatMap f).length := by
  obtain ⟨before, behind, rfl⟩ := List.append_of_mem ha
  simp only [List.flatMap_append, List.flatMap_cons, List.length_append]
  omega

/-- Two elements have different parts of the whole. -/
theorem length_add_length_le {f : α → List β} {l : List α} {a b : α} (ha : a ∈ l) (hb : b ∈ l) (hab : a ≠ b) :
    (f a).length + (f b).length ≤ (l.flatMap f).length := by
  induction l with
  | nil => cases ha
  | cons c rest ih =>
    rw [List.flatMap_cons, List.length_append]
    rcases List.mem_cons.mp ha with rfl | ha'
    · have hb' : b ∈ rest := (List.mem_cons.mp hb).resolve_left (Ne.symm hab)
      have hle := length_le_flatMap (f := f) hb'
      omega
    · rcases List.mem_cons.mp hb with rfl | hb'
      · have hle := length_le_flatMap (f := f) ha'
        omega
      · have hle := ih ha' hb'
        omega

theorem keys_filterMap {γ : Type} {key : γ → α} {f : γ → Option β} {l : List γ} :
    ((l.filterMap fun c => (f c).map fun b => (key c, b)).map Prod.fst).Sublist (l.map key) := by
  induction l with
  | nil => exact List.Sublist.slnil
  | cons c rest ih =>
    cases hc : f c with
    | none =>
      rw [List.filterMap_cons_none (by simp [hc]), List.map_cons]
      exact ih.cons _
    | some b =>
      rw [List.filterMap_cons_some (b := (key c, b)) (by simp [hc]), List.map_cons, List.map_cons]
      exact ih.cons_cons _

theorem mapM_eq_some {f : α → Option β} {g : α → β} {l : List α} (h : ∀ a ∈ l, f a = some (g a)) :
    l.mapM f = some (l.map g) := by
  induction l with
  | nil => rfl
  | cons a rest ih =>
    rw [List.mapM_cons, h a List.mem_cons_self, ih fun b hb => h b (List.mem_cons_of_mem _ hb)]
    rfl

theorem mapM_flatMap_eq_some {γ : Type} {f : α → Option β} {parts : γ → List α} {g : γ → List β} {l : List γ}
    (h : ∀ c ∈ l, (parts c).mapM f = some (g c)) : (l.flatMap parts).mapM f = some (l.flatMap g) := by
  induction l with
  | nil => rfl
  | cons c rest ih =>
    rw [List.flatMap_cons, List.mapM_append, h c List.mem_cons_self, ih fun d hd => h d (List.mem_cons_of_mem _ hd)]
    rfl

end Keyed
