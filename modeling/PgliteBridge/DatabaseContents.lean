import PgliteBridge.Database

/-!
# What inserts store

A list of inserts goes through if and only if every row has a place and the constraints accept what the tables hold in
the end (`insertAll_eq_some`).  Its order does not matter.
-/

namespace PgliteBridge.Postgres

variable {ν : Type}

/-- The rows that are placed in a table. -/
def rowsFor (name : QualifiedName) (placed : List (QualifiedName × Row ν)) : List (Row ν) :=
  placed.filterMap fun entry => if entry.1 = name then some entry.2 else none

section RowsFor

variable {name : QualifiedName} {placed placed' : List (QualifiedName × Row ν)}

theorem rowsFor_append : rowsFor name (placed ++ placed') = rowsFor name placed ++ rowsFor name placed' :=
  List.filterMap_append

theorem rowsFor_perm (h : placed.Perm placed') : (rowsFor name placed).Perm (rowsFor name placed') :=
  h.filterMap _

theorem rowsFor_eq_nil (h : name ∉ placed.map Prod.fst) : rowsFor name placed = [] := by
  refine List.filterMap_eq_nil_iff.mpr fun entry hentry => ?_
  have hne : entry.1 ≠ name := fun he => h (he ▸ List.mem_map_of_mem hentry)
  rw [if_neg hne]

theorem rowsFor_flatMap {α : Type} {l : List α} {f : α → List (QualifiedName × Row ν)} :
    rowsFor name (l.flatMap f) = l.flatMap fun a => rowsFor name (f a) := by
  induction l with
  | nil => rfl
  | cons a rest ih => rw [List.flatMap_cons, List.flatMap_cons, rowsFor_append, ih]

/-- All rows go to one table. -/
theorem rowsFor_map {rows : List (Row ν)} {f : Row ν → Row ν} :
    rowsFor name (rows.map fun row => (name, f row)) = rows.map f := by
  induction rows with
  | nil => rfl
  | cons row rest ih =>
    have hcons : rowsFor name ((row :: rest).map fun row => (name, f row)) =
        f row :: rowsFor name (rest.map fun row => (name, f row)) := by
      simp [rowsFor]
    rw [hcons, ih, List.map_cons]

theorem rowsFor_map_ne {other : QualifiedName} {rows : List (Row ν)} {f : Row ν → Row ν} (h : other ≠ name) :
    rowsFor name (rows.map fun row => (other, f row)) = [] := by
  refine rowsFor_eq_nil fun hmem => ?_
  obtain ⟨entry, hentry, rfl⟩ := List.mem_map.mp hmem
  obtain ⟨row, -, rfl⟩ := List.mem_map.mp hentry
  exact h rfl

end RowsFor

namespace Database

variable {db db' : Database ν} {placed placed' : List (QualifiedName × Row ν)}

def withRows (db : Database ν) (placed : List (QualifiedName × Row ν)) : Database ν :=
  { db with rows := fun name => db.rows name ++ rowsFor name placed }

/-- The constraints of the tables accept their rows together with those that are placed. -/
def Admits (db : Database ν) (placed : List (QualifiedName × Row ν)) : Prop :=
  ∀ name ∈ placed.map Prod.fst, ∃ table, db.find? name = some table ∧
    table.accepts (db.rows name ++ rowsFor name placed) = true

private theorem withRows_nil : db.withRows [] = db := by simp [withRows, rowsFor]

private theorem withRows_append : (db.withRows placed).withRows placed' = db.withRows (placed ++ placed') := by
  simp [withRows, rowsFor_append]

private theorem Admits.perm (h : db.Admits placed) (hperm : placed.Perm placed') : db.Admits placed' := by
  intro name hname
  obtain ⟨table, htable, haccepts⟩ := h name ((hperm.map Prod.fst).mem_iff.mpr hname)
  exact ⟨table, htable, table.accepts_of_subperm ((rowsFor_perm hperm.symm).append_left _).subperm haccepts⟩

private theorem admits_append :
    db.Admits (placed ++ placed') ↔ db.Admits placed ∧ (db.withRows placed).Admits placed' := by
  constructor
  · intro h
    constructor
    · intro name hname
      obtain ⟨table, htable, haccepts⟩ := h name (by rw [List.map_append]; exact List.mem_append_left _ hname)
      refine ⟨table, htable, table.accepts_of_subperm ?_ haccepts⟩
      rw [rowsFor_append, ← List.append_assoc]
      exact (List.sublist_append_left _ _).subperm
    · intro name hname
      obtain ⟨table, htable, haccepts⟩ := h name (by rw [List.map_append]; exact List.mem_append_right _ hname)
      refine ⟨table, htable, ?_⟩
      rw [rowsFor_append, ← List.append_assoc] at haccepts
      exact haccepts
  · rintro ⟨hplaced, hplaced'⟩ name hname
    by_cases hmem : name ∈ placed'.map Prod.fst
    · obtain ⟨table, htable, haccepts⟩ := hplaced' name hmem
      refine ⟨table, htable, ?_⟩
      rw [rowsFor_append, ← List.append_assoc]
      exact haccepts
    · rw [List.map_append] at hname
      obtain ⟨table, htable, haccepts⟩ := hplaced name ((List.mem_append.mp hname).resolve_right hmem)
      refine ⟨table, htable, ?_⟩
      rw [rowsFor_append, rowsFor_eq_nil hmem, List.append_nil]
      exact haccepts

/-! ### One row, one insert, a list of inserts -/

private theorem addRow_eq_some {entry : QualifiedName × Row ν} :
    db.addRow entry = some db' ↔ db.Admits [entry] ∧ db' = db.withRows [entry] := by
  obtain ⟨name, row⟩ := entry
  have hrows : rowsFor name [(name, row)] = [row] := by simp [rowsFor]
  have hdatabase : db.withRows [(name, row)] =
      { db with rows := fun other => if other = name then db.rows name ++ [row] else db.rows other } := by
    unfold withRows
    congr 1
    funext other
    by_cases hother : other = name
    · subst hother
      rw [hrows, if_pos rfl]
    · rw [if_neg hother, rowsFor_eq_nil (by simpa using hother), List.append_nil]
  have hadmits : db.Admits [(name, row)] ↔
      ∃ table, db.find? name = some table ∧ table.accepts (db.rows name ++ [row]) = true := by
    simp [Admits, hrows]
  rw [hadmits, hdatabase]
  unfold addRow
  cases hfind : db.find? name with
  | none => simp
  | some table =>
    by_cases haccepts : table.accepts (db.rows name ++ [row]) = true
    · simp only [Option.bind_eq_bind, Option.bind_some, haccepts, if_true]
      constructor
      · rintro ⟨⟩
        exact ⟨⟨table, rfl, haccepts⟩, rfl⟩
      · rintro ⟨-, rfl⟩
        rfl
    · simp [haccepts]

private theorem foldlM_addRow_eq_some :
    placed.foldlM addRow db = some db' ↔ db.Admits placed ∧ db' = db.withRows placed := by
  induction placed generalizing db with
  | nil =>
    have hnil : db.Admits [] := by simp [Admits]
    rw [withRows_nil]
    constructor
    · rintro ⟨⟩
      exact ⟨hnil, rfl⟩
    · rintro ⟨-, rfl⟩
      rfl
  | cons entry rest ih =>
    have hsplit : entry :: rest = [entry] ++ rest := rfl
    rw [List.foldlM_cons, hsplit, admits_append, ← withRows_append, Option.bind_eq_bind, Option.bind_eq_some_iff]
    constructor
    · rintro ⟨mid, hmid, hrest⟩
      obtain ⟨hentry, rfl⟩ := addRow_eq_some.mp hmid
      obtain ⟨hadmits, rfl⟩ := ih.mp hrest
      exact ⟨⟨hentry, hadmits⟩, rfl⟩
    · rintro ⟨⟨hentry, hadmits⟩, rfl⟩
      exact ⟨_, addRow_eq_some.mpr ⟨hentry, rfl⟩, ih.mpr ⟨hadmits, rfl⟩⟩

variable [Inhabited ν] {insert : Insert} {inserts inserts' : List Insert}

/-- An insert with foreign keys off. -/
private theorem insert_eq_some : db.insert false insert = some db' ↔
    ∃ placed, db.placements insert = some placed ∧ db.Admits placed ∧ db' = db.withRows placed := by
  unfold Database.insert
  cases hplacements : db.placements insert with
  | none => simp
  | some placed =>
    cases hfold : placed.foldlM addRow db with
    | none =>
      have hnone : ¬ db.Admits placed := by
        intro hadmits
        have hsome := foldlM_addRow_eq_some.mpr ⟨hadmits, rfl⟩
        rw [hfold] at hsome
        cases hsome
      simp [hfold, hnone]
    | some filled =>
      obtain ⟨hadmits, rfl⟩ := foldlM_addRow_eq_some.mp hfold
      simp only [Option.bind_eq_bind, Option.bind_some, hfold, Bool.not_false, Bool.true_or, if_true]
      constructor
      · rintro ⟨⟩
        exact ⟨placed, rfl, hadmits, rfl⟩
      · rintro ⟨_, ⟨⟩, -, rfl⟩
        rfl

/-- Where the rows of a list of inserts go. -/
def placedAll (db : Database ν) (inserts : List Insert) : List (QualifiedName × Row ν) :=
  inserts.flatMap fun insert => (db.placements insert).getD []

/-- Every row has a place, and the constraints accept them all. -/
structure AdmitsAll (db : Database ν) (inserts : List Insert) : Prop where
  placed : ∀ insert ∈ inserts, (db.placements insert).isSome
  admits : db.Admits (db.placedAll inserts)

theorem AdmitsAll.perm (h : db.AdmitsAll inserts) (hperm : inserts.Perm inserts') : db.AdmitsAll inserts' where
  placed insert hinsert := h.placed insert (hperm.mem_iff.mpr hinsert)
  admits := h.admits.perm (hperm.flatMap_right _)

theorem insertAll_eq_some : inserts.foldlM (fun db insert => db.insert false insert) db = some db' ↔
    db.AdmitsAll inserts ∧ db' = db.withRows (db.placedAll inserts) := by
  induction inserts generalizing db with
  | nil =>
    have hnil : db.AdmitsAll [] := ⟨by simp, by simp [placedAll, Admits]⟩
    have hsame : db.withRows (db.placedAll []) = db := withRows_nil
    rw [hsame]
    constructor
    · rintro ⟨⟩
      exact ⟨hnil, rfl⟩
    · rintro ⟨-, rfl⟩
      rfl
  | cons insert rest ih =>
    have hsplit : db.placedAll (insert :: rest) = (db.placements insert).getD [] ++ db.placedAll rest := rfl
    rw [List.foldlM_cons, Option.bind_eq_bind, Option.bind_eq_some_iff]
    constructor
    · rintro ⟨mid, hmid, hrest⟩
      obtain ⟨placed, hplaced, hadmits, rfl⟩ := insert_eq_some.mp hmid
      obtain ⟨hadmitsAll, rfl⟩ := ih.mp hrest
      have hplacedAll : db.placedAll (insert :: rest) = placed ++ db.placedAll rest := by rw [hsplit, hplaced]; rfl
      refine ⟨⟨fun other hother => ?_, ?_⟩, ?_⟩
      · rcases List.mem_cons.mp hother with rfl | hmem
        · rw [hplaced]
          rfl
        · exact hadmitsAll.placed other hmem
      · rw [hplacedAll]
        exact admits_append.mpr ⟨hadmits, hadmitsAll.admits⟩
      · rw [hplacedAll, ← withRows_append]
        rfl
    · rintro ⟨hall, rfl⟩
      obtain ⟨placed, hplaced⟩ := Option.isSome_iff_exists.mp (hall.placed insert List.mem_cons_self)
      have hplacedAll : db.placedAll (insert :: rest) = placed ++ db.placedAll rest := by rw [hsplit, hplaced]; rfl
      obtain ⟨hfirst, hothers⟩ := admits_append.mp (hplacedAll ▸ hall.admits)
      refine ⟨_, insert_eq_some.mpr ⟨placed, hplaced, hfirst, rfl⟩, ih.mpr ⟨⟨fun other hother => ?_, hothers⟩, ?_⟩⟩
      · exact hall.placed other (List.mem_cons_of_mem _ hother)
      · rw [hplacedAll, ← withRows_append]
        rfl

/-! ### Truncation -/

omit [Inhabited ν]

variable {names : List QualifiedName} {table : Table ν} {name : QualifiedName}

private theorem mem_cascade (htable : table ∈ db.tables)
    (h : table.name ∈ names ∨ ∃ parent ∈ table.ancestors, parent ∈ names) :
    table.name ∈ db.cascade names := by
  refine List.mem_map_of_mem (List.mem_filter.mpr ⟨htable, ?_⟩)
  rcases h with hname | ⟨parent, hparent, hmem⟩
  · simp [hname]
  · have hany : table.ancestors.any names.contains = true := List.any_eq_true.mpr ⟨parent, hparent, by simpa using hmem⟩
    rw [hany]
    simp

/-- A table that is named, and a partition or inheritance child of one, is emptied. -/
theorem mem_truncated (htable : table ∈ db.tables)
    (h : table.name ∈ names ∨ ∃ parent ∈ table.ancestors, parent ∈ names) : table.name ∈ db.truncated names := by
  have hkeep : ∀ n names, table.name ∈ names → table.name ∈ db.cascade^[n] names := by
    intro n
    induction n with
    | zero => exact fun names hname => hname
    | succ n ih =>
      intro names hname
      rw [Function.iterate_succ_apply]
      exact ih _ (mem_cascade htable (Or.inl hname))
  unfold truncated
  cases hlength : db.tables.length with
  | zero => rw [List.length_eq_zero_iff.mp hlength] at htable; cases htable
  | succ n =>
    rw [Function.iterate_succ_apply]
    exact hkeep n _ (mem_cascade htable h)

private theorem cascade_perm {names' : List QualifiedName} (h : names.Perm names') :
    db.cascade names = db.cascade names' := by
  have hcontains : ∀ name, names.contains name = names'.contains name := by
    intro name
    rw [Bool.eq_iff_iff]
    simpa using h.mem_iff
  have hfun : names.contains = names'.contains := funext hcontains
  simp only [cascade, hcontains, hfun]

private theorem truncated_contains_perm {names' : List QualifiedName} (h : names.Perm names') :
    (db.truncated names).contains = (db.truncated names').contains := by
  funext name
  unfold truncated
  cases db.tables.length with
  | zero =>
    rw [Bool.eq_iff_iff]
    simpa using h.mem_iff
  | succ n => rw [Function.iterate_succ_apply, Function.iterate_succ_apply, cascade_perm h]

theorem restarted_perm {names' : List QualifiedName} (h : names.Perm names') :
    db.restarted names = db.restarted names' := by
  simp only [restarted, truncated_contains_perm h]

/-- The order in which the tables are named does not matter. -/
theorem truncate_perm {names' : List QualifiedName} (h : names.Perm names') :
    db.truncate names = db.truncate names' := by
  have hcontains : ∀ name, (db.truncated names).contains name = (db.truncated names').contains name :=
    congrFun (truncated_contains_perm h)
  simp only [truncate, restarted_perm h, hcontains]

theorem truncate_rows (h : name ∈ db.truncated names) : (db.truncate names).rows name = [] := by
  simp [truncate, h]

section Subcatalog

variable {names' : List QualifiedName}

private theorem cascade_mono (htables : db'.tables.Sublist db.tables) (hnames : names' ⊆ names) :
    db'.cascade names' ⊆ db.cascade names := by
  intro name hname
  obtain ⟨table, htable, rfl⟩ := List.mem_map.mp hname
  obtain ⟨hmem, hselected⟩ := List.mem_filter.mp htable
  refine List.mem_map_of_mem (List.mem_filter.mpr ⟨htables.subset hmem, ?_⟩)
  simp only [Bool.or_eq_true, List.any_eq_true, List.contains_iff_mem] at hselected ⊢
  rcases hselected with (hself | ⟨parent, hparent, hin⟩) | ⟨key, hkey, hin⟩
  · exact Or.inl (Or.inl (hnames hself))
  · exact Or.inl (Or.inr ⟨parent, hparent, hnames hin⟩)
  · exact Or.inr ⟨key, hkey, hnames hin⟩

private theorem cascade_subset : db.cascade names ⊆ db.tables.map (·.name) := by
  intro name hname
  obtain ⟨table, htable, rfl⟩ := List.mem_map.mp hname
  exact List.mem_map_of_mem (List.mem_of_mem_filter htable)

/-- Names of tables stay in the cascade. -/
private theorem subset_cascade (h : names ⊆ db.tables.map (·.name)) : names ⊆ db.cascade names := by
  intro name hname
  obtain ⟨table, htable, rfl⟩ := List.mem_map.mp (h hname)
  exact mem_cascade htable (Or.inl hname)

/-- Fewer tables, in fewer rounds, empty no more. -/
private theorem iterate_cascade_mono (htables : db'.tables.Sublist db.tables) (n m : Nat) (hle : n ≤ m) :
    ∀ names names' : List QualifiedName, names' ⊆ names → names ⊆ db.tables.map (·.name) →
      db'.cascade^[n] names' ⊆ db.cascade^[m] names := by
  induction m generalizing n with
  | zero =>
    intro names names' hnames _
    obtain rfl : n = 0 := by omega
    exact hnames
  | succ m ih =>
    intro names names' hnames hin
    cases n with
    | zero =>
      rw [Function.iterate_succ_apply]
      exact ih 0 (by omega) _ _ (List.Subset.trans hnames (subset_cascade hin)) cascade_subset
    | succ n =>
      rw [Function.iterate_succ_apply, Function.iterate_succ_apply]
      exact ih n (by omega) _ _ (cascade_mono htables hnames) cascade_subset

theorem truncated_mono (htables : db'.tables.Sublist db.tables) (hnames : names' ⊆ names)
    (hin : names ⊆ db.tables.map (·.name)) : db'.truncated names' ⊆ db.truncated names :=
  iterate_cascade_mono htables _ _ htables.length_le _ _ hnames hin

theorem restarted_mono (htables : db'.tables.Sublist db.tables) (hsequences : db'.sequences.Sublist db.sequences)
    (hnames : names' ⊆ names) (hin : names ⊆ db.tables.map (·.name)) : db'.restarted names' ⊆ db.restarted names := by
  intro name hname
  obtain ⟨sequence, hsequence, rfl⟩ := List.mem_map.mp hname
  obtain ⟨hmem, howned⟩ := List.mem_filter.mp hsequence
  refine List.mem_map_of_mem (List.mem_filter.mpr ⟨hsequences.subset hmem, ?_⟩)
  cases howner : sequence.owner with
  | none => rw [howner] at howned; cases howned
  | some owner =>
    rw [howner] at howned
    simp only [Option.any_some, List.contains_iff_mem] at howned ⊢
    exact truncated_mono htables hnames hin howned

theorem truncated_nil : db.truncated [] = [] := by
  have hcascade : db.cascade [] = [] := by simp [cascade]
  exact Function.iterate_fixed hcascade _

end Subcatalog

/-! ### Positions -/

/-- A list of `setval`s. -/
def positions (db : Database ν) (sequences : List (QualifiedName × Int)) : Database ν :=
  sequences.foldl (fun db entry => db.position entry.1 entry.2) db

section Positions

variable {sequences : List (QualifiedName × Int)}

/-- `setval` moves sequences only. -/
theorem positions_eq : db.positions sequences = { db with lastValue := (db.positions sequences).lastValue } := by
  induction sequences generalizing db with
  | nil => rfl
  | cons entry rest ih =>
    have hrest : (db.position entry.1 entry.2).positions rest = { db.position entry.1 entry.2 with
        lastValue := ((db.position entry.1 entry.2).positions rest).lastValue } := ih
    exact hrest

theorem positions_of_not_mem (h : name ∉ sequences.map Prod.fst) :
    (db.positions sequences).lastValue name = db.lastValue name := by
  induction sequences generalizing db with
  | nil => rfl
  | cons entry rest ih =>
    rw [List.map_cons, List.mem_cons, not_or] at h
    have hrest : ((db.position entry.1 entry.2).positions rest).lastValue name =
        (db.position entry.1 entry.2).lastValue name := ih h.2
    have hentry : (db.position entry.1 entry.2).lastValue name = db.lastValue name := if_neg h.1
    exact hrest.trans hentry

theorem positions_of_mem {value : Int} (hkeys : (sequences.map Prod.fst).Nodup) (h : (name, value) ∈ sequences) :
    (db.positions sequences).lastValue name = some value := by
  induction sequences generalizing db with
  | nil => cases h
  | cons entry rest ih =>
    rw [List.map_cons, List.nodup_cons] at hkeys
    rcases List.mem_cons.mp h with rfl | hrest
    · have hfirst : (db.position name value).lastValue name = some value := if_pos rfl
      exact (positions_of_not_mem hkeys.1).trans hfirst
    · exact ih hkeys.2 hrest

end Positions

end Database

end PgliteBridge.Postgres
