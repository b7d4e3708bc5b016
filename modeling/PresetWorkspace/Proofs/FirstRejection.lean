import PresetWorkspace.Proofs.Script

/-!
# The first rejected call

Setting up a preset asks for one record after the other and stops at the first
call that is rejected. What it has asked for until then does not hang on that
answer: it is how the calls begin that would have been made had the call and
all later ones been accepted (`Store.lenient`). The failure names the record of
that call, with the store's reason right behind it (`materialize_stops`).
-/

namespace PresetWorkspace

variable {ι ε σ α : Type}

/-! ## Calls that are made -/

def Store.noting (store : Store ι ε σ) : Store ι ε (σ × List (Call ι)) := fun call =>
  ExceptT.mk fun (s, calls) => ((store call s).1, (store call s).2, calls ++ [call])

def Preset.callsTo (p : Preset) (name : String) (store : Store ι ε σ) (s : σ) : List (Call ι) :=
  (p.materialize name store.noting (s, [])).2.2

theorem Script.run_noting (store : Store ι ε σ) (b : Script ι ε (Rejected ε) α) (s : σ) (calls : List (Call ι)) :
    b.run store.noting (s, calls) = ((b.run store s).1, (b.run store s).2, calls ++ b.calls store s) := by
  induction b generalizing s calls with
  | give v => simp [Script.calls]
  | fail e => simp [Script.calls]
  | ask call next ih =>
    have hnoting : store.noting call (s, calls) = ((store call s).1, (store call s).2, calls ++ [call]) := rfl
    rw [run_ask, run_ask, hnoting, ih]
    simp [Script.calls]

def Call.refusal : Call ι → String
  | .group r => "Failed to create tag group '" ++ r.name ++ "'"
  | .tag r => "Failed to create tag '" ++ r.name ++ "'"
  | .todo r => "Failed to create todo '" ++ r.title ++ "'"

theorem Rejected.message_eq (call : Call ι) (e : ε) :
    (⟨call.subject, call.label, e⟩ : Rejected ε).message = call.refusal := by
  cases call <;> rfl

/-! ## A store that goes on -/

/-- Answers as a store does up to the first call that it rejects. That call and all later ones are accepted, with spare
ids in turn. -/
def Store.lenient (store : Store ι ε σ) (spare : Nat → ι) : Store ι ε (σ × Option Nat) := fun call =>
  ExceptT.mk fun
    | (s, none) =>
      match store call s with
      | (.ok id, s') => (.ok id, s', none)
      | (.error _, s') => (.ok (spare 0), s', some 1)
    | (s, some n) => (.ok (spare n), s, some (n + 1))

section
variable {store : Store ι ε σ} {spare : Nat → ι} {call : Call ι} {s : σ}

theorem lenient_of_ok {id : ι} (h : (store call s).1 = .ok id) :
    store.lenient spare call (s, none) = (.ok id, (store call s).2, none) := by
  show (match store call s with
    | (.ok id, s') => _
    | (.error _, s') => _) = _
  cases hcall : store call s with
  | mk answer s' =>
    rw [hcall] at h
    cases h
    rfl

theorem lenient_of_error {e : ε} (h : (store call s).1 = .error e) :
    store.lenient spare call (s, none) = (.ok (spare 0), (store call s).2, some 1) := by
  show (match store call s with
    | (.ok id, s') => _
    | (.error _, s') => _) = _
  cases hcall : store call s with
  | mk answer s' =>
    rw [hcall] at h
    cases h
    rfl

theorem lenient_accepts (call : Call ι) (t : σ × Option Nat) : ∃ id, (store.lenient spare call t).1 = .ok id := by
  obtain ⟨s, _ | n⟩ := t
  · cases h : (store call s).1 with
    | ok id => exact ⟨id, by rw [lenient_of_ok h]⟩
    | error e => exact ⟨spare 0, by rw [lenient_of_error h]⟩
  · exact ⟨spare n, rfl⟩

theorem Script.calls_lenient_of_ok {next : Except ε ι → Script ι ε (Rejected ε) α} {id : ι}
    (h : (store call s).1 = .ok id) :
    (ask call next).calls (store.lenient spare) (s, none) =
      call :: (next (.ok id)).calls (store.lenient spare) ((store call s).2, none) := by
  simp only [calls, lenient_of_ok h]

theorem Script.calls_lenient_of_error {next : Except ε ι → Script ι ε (Rejected ε) α} {e : ε}
    (h : (store call s).1 = .error e) :
    (ask call next).calls (store.lenient spare) (s, none) =
      call :: (next (.ok (spare 0))).calls (store.lenient spare) ((store call s).2, some 1) := by
  simp only [calls, lenient_of_error h]

end

/-! ## Where a script stops -/

namespace Script.Stopping

variable {n : Nat} {b : Script ι ε (Rejected ε) α}

theorem length_calls {τ : Type} {store : Store ι ε τ} (haccepts : ∀ call t, ∃ id, (store call t).1 = .ok id)
    (h : b.Stopping n) (t : τ) : (b.calls store t).length = n := by
  induction h generalizing t with
  | give v => rfl
  | @ask n call next stops goesOn ih =>
    obtain ⟨id, hid⟩ := haccepts call t
    simp only [Script.calls, List.length_cons, hid, ih]

variable {store : Store ι ε σ} {spare : Nat → ι} {s : σ} {calls : List (Call ι)}
variable (h : b.Stopping n) (hcalls : b.calls (store.lenient spare) (s, none) = calls)
include h hcalls

/-- The first rejected call is the last one, and its record is what the failure tells of. -/
theorem run_of_rejected {k : Nat} {e : ε} (haccepted : ∀ answer ∈ (store.answerAll calls s).1.take k, answer.isOk = true)
    (hrejected : (store.answerAll calls s).1[k]? = some (.error e)) :
    b.calls store s = calls.take (k + 1) ∧
      ∃ call, calls[k]? = some call ∧ (b.run store s).1 = .error ⟨call.subject, call.label, e⟩ := by
  -- Along the calls of the script: `k` counts those that are still accepted.
  induction h generalizing s k calls with
  | give v =>
    subst hcalls
    simp [Script.calls, Store.answerAll] at hrejected
  | @ask n call next stops goesOn ih =>
    cases hcall : (store call s).1 with
    | ok id =>
      -- Both stores have answered alike so far, and the next call meets the same state.
      rw [calls_lenient_of_ok hcall] at hcalls
      subst hcalls
      rw [Store.answerAll, hcall] at haccepted hrejected
      cases k with
      | zero => simp at hrejected
      | succ k =>
        rw [List.take_succ_cons, List.forall_mem_cons] at haccepted
        obtain ⟨hmade, record, hrecord, hrun⟩ := ih id rfl haccepted.2 hrejected
        refine ⟨?_, record, hrecord, ?_⟩
        · rw [Script.calls, hcall, hmade, List.take_succ_cons]
        · rw [run_ask, hcall, hrun]
    | error e' =>
      rw [calls_lenient_of_error hcall] at hcalls
      subst hcalls
      rw [Store.answerAll, hcall] at haccepted hrejected
      cases k with
      | zero =>
        cases hrejected
        refine ⟨?_, call, rfl, ?_⟩
        · rw [Script.calls, hcall, stops]
          rfl
        · rw [run_ask, hcall, stops]
          rfl
      | succ k =>
        rw [List.take_succ_cons, List.forall_mem_cons] at haccepted
        cases haccepted.1

theorem run_of_accepted (haccepted : ∀ answer ∈ (store.answerAll calls s).1, answer.isOk = true) :
    b.calls store s = calls ∧ ∃ v, (b.run store s).1 = .ok v := by
  induction h generalizing s calls with
  | give v => exact ⟨hcalls, v, rfl⟩
  | @ask n call next stops goesOn ih =>
    cases hcall : (store call s).1 with
    | ok id =>
      rw [calls_lenient_of_ok hcall] at hcalls
      subst hcalls
      rw [Store.answerAll, List.forall_mem_cons] at haccepted
      obtain ⟨hmade, v, hrun⟩ := ih id rfl haccepted.2
      refine ⟨?_, v, ?_⟩
      · rw [Script.calls, hcall, hmade]
      · rw [run_ask, hcall, hrun]
    | error e =>
      rw [calls_lenient_of_error hcall] at hcalls
      subst hcalls
      rw [Store.answerAll, List.forall_mem_cons, hcall] at haccepted
      cases haccepted.1

end Script.Stopping

/-! ## Presets -/

/-- A preset has as many calls as records. If a store accepts the first `n` of them and rejects the next one, that one
is the last that is made, and its record and the store's reason are all that the failure tells. If all are accepted,
setting up the preset succeeds. -/
theorem materialize_stops (p : Preset) (name : String) (store : Store ι ε σ) (spare : Nat → ι) (s : σ) :
    let calls := p.callsTo name (store.lenient spare) (s, none)
    let answers := (store.answerAll calls s).1
    calls.length = 1 + p.tags.length + TodoTemplate.countAll p.todos ∧
      (∀ n e, (∀ answer ∈ answers.take n, answer.isOk = true) → answers[n]? = some (.error e) →
        p.callsTo name store s = calls.take (n + 1) ∧
          ∃ call r, calls[n]? = some call ∧ (p.materialize name store s).1 = .error r ∧
            r.message = call.refusal ∧ r.cause = e) ∧
      ((∀ answer ∈ answers, answer.isOk = true) →
        p.callsTo name store s = calls ∧ ∃ r, (p.materialize name store s).1 = .ok r) := by
  obtain ⟨b, hstops, hb⟩ := materialize_isStopping (ι := ι) (ε := ε) p name
  have hcalls {τ : Type} (store : Store ι ε τ) (t : τ) : p.callsTo name store t = b.calls store t := by
    have hnoting : p.materialize name store.noting = b.run store.noting := hb _ _
    rw [Preset.callsTo, hnoting, Script.run_noting, List.nil_append]
  have hrun : p.materialize name store = b.run store := hb _ _
  simp only [hcalls, hrun]
  refine ⟨hstops.length_calls lenient_accepts _, ?_, hstops.run_of_accepted rfl⟩
  intro n e haccepted hrejected
  obtain ⟨hmade, call, hcall, herror⟩ := hstops.run_of_rejected rfl haccepted hrejected
  exact ⟨hmade, call, _, hcall, herror, Rejected.message_eq call e, rfl⟩

def numberingBut (name : String) : Store Nat String Nat := fun call => ExceptT.mk fun n =>
  if call.label = name then (.error ("no " ++ name), n) else (.ok n, n + 1)

/-- The third todo is rejected, two levels down; the one after it would be taken. -/
theorem materialize_stops_below :
    let c : TodoTemplate := { title := "c" }
    let b : TodoTemplate := { title := "b", children := some [c] }
    let p : Preset :=
      { name := "p", group := { name := "g", color := "" }, tags := [⟨"t", "", none⟩]
        todos := [{ title := "a", children := some [b] }, { title := "d" }] }
    let calls := p.callsTo "p" ((numberingBut "c").lenient fun n => n + 10) (0, none)
    let answers := ((numberingBut "c").answerAll calls 0).1
    answers = [.ok 0, .ok 1, .ok 2, .ok 3, .error "no c", .ok 4] ∧
      p.callsTo "p" (numberingBut "c") 0 = calls.take 5 ∧
        ∃ r, (p.materialize "p" (numberingBut "c") 0).1 = .error r ∧
          r.message = "Failed to create todo 'c'" ∧ r.cause = "no c" := by
  intro c b p calls answers
  have hanswers : answers = [.ok 0, .ok 1, .ok 2, .ok 3, .error "no c", .ok 4] := by rfl
  have haccepted : ∀ answer ∈ answers.take 4, answer.isOk = true := by
    rw [hanswers]
    decide
  have hrejected : answers[4]? = some (.error "no c") := by rw [hanswers]; rfl
  have hlast : calls[4]? = some (.todo ⟨"c", none, 0, none, some 3⟩) := by rfl
  obtain ⟨-, hstops, -⟩ := materialize_stops p "p" (numberingBut "c") (fun n => n + 10) 0
  obtain ⟨hmade, call, r, hcall, hrun, hmessage, hcause⟩ := hstops 4 "no c" haccepted hrejected
  cases hlast.symm.trans hcall
  exact ⟨hanswers, hmade, r, hrun, hmessage, hcause⟩

end PresetWorkspace
