import Mathlib.Tactic.Common

/-!
# Commands

A command over the states `σ` ends in a value or in an error, and in a state either way.  `Meets pre c post failed` says
that from a state with `pre` the command ends in a value and a state with `post` or in an error and a state with
`failed`; there is one rule for each way to build a command.
-/

namespace Commands

variable {σ ε α β : Type}

def Command (σ ε α : Type) := σ → Except ε α × σ

instance : Monad (Command σ ε) where
  pure a := fun s => (.ok a, s)
  bind c f := fun s =>
    match c s with
    | (.ok a, t) => f a t
    | (.error e, t) => (.error e, t)

instance : MonadExcept ε (Command σ ε) where
  throw e := fun s => (.error e, s)
  tryCatch c handler := fun s =>
    match c s with
    | (.ok a, t) => (.ok a, t)
    | (.error e, t) => handler e t

/-- What holds of the outcome. -/
def Outcome (post : α → σ → Prop) (failed : ε → σ → Prop) : Except ε α × σ → Prop
  | (.ok a, s) => post a s
  | (.error e, s) => failed e s

def Meets (pre : σ → Prop) (c : Command σ ε α) (post : α → σ → Prop) (failed : ε → σ → Prop) : Prop :=
  ∀ s, pre s → Outcome post failed (c s)

section Rules

variable {pre pre' : σ → Prop} {post post' : α → σ → Prop} {mid : β → σ → Prop} {failed failed' : ε → σ → Prop}
  {c : Command σ ε α}

theorem Outcome.mono {r : Except ε α × σ} (hr : Outcome post failed r) (hpost : ∀ a s, post a s → post' a s)
    (hfailed : ∀ e s, failed e s → failed' e s) : Outcome post' failed' r := by
  rcases r with ⟨_ | _, s⟩
  · exact hfailed _ s hr
  · exact hpost _ s hr

theorem Meets.mono (h : Meets pre c post failed) (hpre : ∀ s, pre' s → pre s) (hpost : ∀ a s, post a s → post' a s)
    (hfailed : ∀ e s, failed e s → failed' e s) : Meets pre' c post' failed' :=
  fun s hs => (h s (hpre s hs)).mono hpost hfailed

theorem meets_pure {a : α} (h : ∀ s, pre s → post a s) : Meets pre (pure a : Command σ ε α) post failed :=
  fun s hs => h s hs

theorem meets_throw {e : ε} (h : ∀ s, pre s → failed e s) : Meets pre (throw e : Command σ ε α) post failed :=
  fun s hs => h s hs

theorem meets_bind {d : Command σ ε β} {f : β → Command σ ε α} (hd : Meets pre d mid failed)
    (hf : ∀ b, Meets (mid b) (f b) post failed) : Meets pre (d >>= f) post failed := by
  intro s hs
  have h := hd s hs
  change Outcome post failed (match d s with | (.ok b, t) => f b t | (.error e, t) => (.error e, t))
  rcases hds : d s with ⟨e | b, t⟩
  · rw [hds] at h
    exact h
  · rw [hds] at h
    exact hf b t h

theorem meets_seq {d : Command σ ε β} (hd : Meets pre d (fun _ => pre') failed) (hc : Meets pre' c post failed) :
    Meets pre (d >>= fun _ => c) post failed :=
  meets_bind hd fun _ => hc

theorem meets_catch {caught : ε → σ → Prop} {handler : ε → Command σ ε α} (hc : Meets pre c post caught)
    (hhandler : ∀ e, Meets (caught e) (handler e) post failed) : Meets pre (tryCatch c handler) post failed := by
  intro s hs
  have h := hc s hs
  change Outcome post failed (match c s with | (.ok a, t) => (.ok a, t) | (.error e, t) => handler e t)
  rcases hcs : c s with ⟨e | a, t⟩
  · rw [hcs] at h
    exact hhandler e t h
  · rw [hcs] at h
    exact h

/-- A loop keeps an invariant on the elements that are done. -/
theorem meets_forM {f : α → Command σ ε PUnit} {l : List α} (inv : List α → σ → Prop)
    (h : ∀ done a rest, l = done ++ a :: rest → Meets (inv done) (f a) (fun _ => inv (done ++ [a])) failed) :
    Meets (inv []) (l.forM f) (fun _ => inv l) failed := by
  suffices hsuffix : ∀ rest done, l = done ++ rest → Meets (inv done) (rest.forM f) (fun _ => inv l) failed from
    hsuffix l [] rfl
  intro rest
  induction rest with
  | nil =>
    intro done hl
    rw [List.append_nil] at hl
    subst hl
    exact meets_pure fun s hs => hs
  | cons a rest ih =>
    intro done hl
    change Meets (inv done) (f a >>= fun _ => rest.forM f) (fun _ => inv l) failed
    exact meets_seq (h done a rest hl) (ih (done ++ [a]) (by rw [hl, List.append_assoc]; rfl))

end Rules

/-! ### Sequencing -/

section Sequencing

variable {d : Command σ ε β} {f : β → Command σ ε α} {s t : σ}

theorem bind_of_ok {b : β} (h : d s = (.ok b, t)) : (d >>= f) s = f b t := by
  have hunfold : (d >>= f) s = (match d s with | (.ok b, u) => f b u | (.error e, u) => (.error e, u)) := rfl
  rw [hunfold, h]

theorem bind_of_error {e : ε} (h : d s = (.error e, t)) : (d >>= f) s = (.error e, t) := by
  have hunfold : (d >>= f) s = (match d s with | (.ok b, u) => f b u | (.error e, u) => (.error e, u)) := rfl
  rw [hunfold, h]

theorem tryCatch_of_ok {handler : ε → Command σ ε β} {b : β} (h : d s = (.ok b, t)) :
    tryCatch d handler s = (.ok b, t) := by
  have hunfold : tryCatch d handler s =
      (match d s with | (.ok b, u) => (.ok b, u) | (.error e, u) => handler e u) := rfl
  rw [hunfold, h]

theorem tryCatch_of_error {handler : ε → Command σ ε β} {e : ε} (h : d s = (.error e, t)) :
    tryCatch d handler s = handler e t := by
  have hunfold : tryCatch d handler s =
      (match d s with | (.ok b, u) => (.ok b, u) | (.error e, u) => handler e u) := rfl
  rw [hunfold, h]

end Sequencing

/-! ### Frames -/

/-- The command does not see the change `f` of the state and keeps it. -/
def Commutes (f : σ → σ) (c : Command σ ε α) : Prop := ∀ s, c (f s) = ((c s).1, f (c s).2)

section Frames

variable {f : σ → σ} {c : Command σ ε α}

theorem commutes_pure (a : α) : Commutes f (pure a : Command σ ε α) := fun _ => rfl

theorem commutes_throw (e : ε) : Commutes f (throw e : Command σ ε α) := fun _ => rfl

theorem commutes_bind {d : Command σ ε β} {k : β → Command σ ε α} (hd : Commutes f d) (hk : ∀ b, Commutes f (k b)) :
    Commutes f (d >>= k) := by
  intro s
  have hfs := hd s
  rcases hds : d s with ⟨e | b, t⟩
  · rw [hds] at hfs
    rw [bind_of_error hds, bind_of_error hfs]
  · rw [hds] at hfs
    rw [bind_of_ok hds, bind_of_ok hfs]
    exact hk b t

theorem commutes_catch {handler : ε → Command σ ε α} (hc : Commutes f c) (hhandler : ∀ e, Commutes f (handler e)) :
    Commutes f (tryCatch c handler) := by
  intro s
  have hunfold : ∀ t, tryCatch c handler t =
      (match c t with | (.ok a, u) => (.ok a, u) | (.error e, u) => handler e u) := fun _ => rfl
  rw [hunfold, hunfold, hc s]
  rcases c s with ⟨e | a, t⟩
  · exact hhandler e t
  · rfl

theorem commutes_forM {k : β → Command σ ε PUnit} (l : List β) (hk : ∀ b, Commutes f (k b)) :
    Commutes f (l.forM k) := by
  induction l with
  | nil => exact commutes_pure _
  | cons b rest ih => exact commutes_bind (hk b) fun _ => ih

end Frames

section Results

variable {pre : σ → Prop} {post : α → σ → Prop} {c : Command σ ε α} {s : σ}

/-- A command that cannot fail. -/
theorem Meets.succeeds (h : Meets pre c post fun _ _ => False) (hs : pre s) : ∃ a t, c s = (.ok a, t) ∧ post a t := by
  have hout := h s hs
  rcases hc : c s with ⟨e | a, t⟩
  · rw [hc] at hout
    exact hout.elim
  · rw [hc] at hout
    exact ⟨a, t, rfl, hout⟩

end Results

end Commands
