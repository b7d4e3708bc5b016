import PresetWorkspace.Proofs.History

/-!
# All or nothing

A transaction that fails leaves the tables as they were, at whichever call it
stopped and whatever that call had left behind. One that succeeds leaves what
its calls leave one by one, those that it let fail included.
-/

namespace PresetWorkspace.Workspace.Session

/-- How an operation on a session ends: with the tables as they were, or with all that some calls do one by one. -/
def AllOrNothing {ε α : Type} (store : Store Uuid Error Session) (calls : List (Call Uuid))
    (answers : List (Except Error Uuid)) (s : Session) : Except ε α × Session → Prop
  | (.error _, s') => s'.workspace = s.workspace
  | (.ok _, s') => store.answerAll calls s = (answers, s')

theorem AllOrNothing.adapt {ε ε' α : Type} {store : Store Uuid Error Session} {calls : List (Call Uuid)}
    {answers : List (Except Error Uuid)} {s : Session} {x : Creating ε Session α} (f : ε → ε')
    (h : AllOrNothing store calls answers s (x s)) :
    AllOrNothing store calls answers s ((ExceptT.adapt f x : Creating ε' Session α) s) := by
  rw [Creating.adapt_apply]
  cases hx : x s with
  | mk r s' =>
    rw [hx] at h
    cases r with
    | error e => exact h
    | ok v => exact h

theorem transaction_run {φ α : Type} (store : Store Uuid Error Session) (body : Script Uuid Error φ α) (s : Session) :
    AllOrNothing store (body.calls store s) (body.answers store s) s (transaction (body.run store) s) := by
  rw [transaction_apply]
  have hcalls := body.answerAll_calls store s
  cases hb : body.run store s with
  | mk r s' =>
    rw [hb] at hcalls
    cases r with
    | error e => rfl
    | ok v => exact hcalls

theorem setUp_run (source : Nat → Draw) (user name : String) (p : Preset) (s : Session) :
    ∃ calls answers, AllOrNothing (scope source user) calls answers s (setUp source user name p s) := by
  obtain ⟨b, hb⟩ := materialize_isScript (ι := Uuid) (ε := Error) p name
  have hrun : p.materialize name (scope source user) = b.run (scope source user) := hb _ _
  refine ⟨b.calls (scope source user) s, b.answers (scope source user) s, ?_⟩
  unfold setUp
  rw [hrun]
  exact (transaction_run (scope source user) b s).adapt _

theorem setUpLoaded_run (source : Nat → Draw) (user name : String) (loaded : Except PresetError Preset)
    (s : Session) :
    ∃ calls answers, AllOrNothing (scope source user) calls answers s (setUpLoaded source user name loaded s) := by
  cases loaded with
  | error e => exact ⟨[], [], rfl⟩
  | ok p =>
    obtain ⟨calls, answers, h⟩ := setUp_run source user name p s
    exact ⟨calls, answers, h.adapt _⟩

/-- Transactions of any calls, and with them the setting up of any preset, loaded or not, are all or nothing in every
session, also where tables are gone. -/
theorem all_or_nothing (source : Nat → Draw) (user : String) (s : Session) :
    (∀ (φ α : Type) (body : Script Uuid Error φ α),
      AllOrNothing (scope source user) (body.calls (scope source user) s) (body.answers (scope source user) s) s
        (transaction (body.run (scope source user)) s)) ∧
    (∀ (name : String) (p : Preset), ∃ calls answers,
      AllOrNothing (scope source user) calls answers s (setUp source user name p s)) ∧
    (∀ (name : String) (loaded : Except PresetError Preset), ∃ calls answers,
      AllOrNothing (scope source user) calls answers s (setUpLoaded source user name loaded s)) := by
  refine ⟨fun φ α body => ?_, fun name p => ?_, fun name loaded => ?_⟩
  · exact transaction_run (scope source user) body s
  · exact setUp_run source user name p s
  · exact setUpLoaded_run source user name loaded s

end PresetWorkspace.Workspace.Session
