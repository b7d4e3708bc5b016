import PresetWorkspace.Proofs.Arguments
import PresetWorkspace.Proofs.Except

/-!
# One side of the command

Reading the arguments on one side of the command comes to taking, one after the
other, the parts that they write (`readThrough_written`), and all that is read
without an error is written so (`written_of_readSide`).
-/

namespace PresetWorkspace.CommandLine.Given

variable {place : Option Verb} {g h : Given} {p : Part} {ps qs : List Part} {o : Option Setting}
  {arg : String} {args l : List String} {cs : List Char}

/-- Takes a part; every option counts only once, and so does the name. -/
def take (g : Given) : Part → Except UsageError Given
  | .setting s v => g.give s v
  | .flag f => g.raise f
  | .name n => if g.name.isNone then .ok { g with name := some n } else .error .unknownArgument

def takeAll (g : Given) (ps : List Part) : Except UsageError Given := ps.foldlM take g

def awaited (g : Given) : Option Setting :=
  match g.opened with
  | some (s, none) => some s
  | _ => none

/-- Opens a setting, if there is one, and closes any other. -/
def opening (g : Given) (o : Option Setting) : Given := { g with opened := o.map (·, none) }

theorem awaitsValue_eq (g : Given) : g.awaitsValue = g.awaited.isSome := by
  unfold awaitsValue awaited
  split <;> simp_all

theorem opening_none (hg : g.opened = none) : g.opening none = g := by
  cases g
  cases hg
  rfl

theorem takeAll_cons (g : Given) (p : Part) (ps : List Part) :
    g.takeAll (p :: ps) = (g.take p).bind (·.takeAll ps) := rfl

theorem takeAll_singleton (g : Given) (p : Part) : g.takeAll [p] = g.take p := bind_pure (g.take p)

theorem takeAll_append (g : Given) (ps qs : List Part) :
    g.takeAll (ps ++ qs) = (g.takeAll ps).bind (·.takeAll qs) := List.foldlM_append

theorem settle_of_opened (hg : g.opened = none) : g.settle = .ok g := by
  simp only [settle, hg]

theorem awaitsValue_of_opened (hg : g.opened = none) : g.awaitsValue = false := by
  simp only [awaitsValue, hg]

theorem give_eq_ok {s : Setting} {v : String} :
    g.give s v = .ok h ↔ (g.settings.lookup s).isSome = false ∧ s.accepts v = true ∧
      h = { g with settings := g.settings ++ [(s, v)], opened := none } := by
  unfold give
  by_cases hgiven : (g.settings.lookup s).isSome
  · simp [hgiven]
  · by_cases haccepts : s.accepts v
    · simp [hgiven, haccepts, eq_comm]
    · simp [hgiven, haccepts]

theorem raise_eq_ok {f : Flag} :
    g.raise f = .ok h ↔ (f ≠ .help ∧ f ≠ .version) ∧ f ∉ g.flags ∧ h = { g with flags := g.flags ++ [f] } := by
  unfold raise
  by_cases hraised : f ∈ g.flags
  · cases f <;> simp [hraised]
  · cases f <;> simp [hraised, eq_comm]

theorem take_name_eq_ok {n : String} :
    g.take (.name n) = .ok h ↔ g.name = none ∧ h = { g with name := some n } := by
  unfold take
  by_cases hname : g.name = none
  · simp [hname, eq_comm]
  · simp [hname]

theorem opened_of_give {s : Setting} {v : String} (hgive : g.give s v = .ok h) : h.opened = none := by
  obtain ⟨-, -, rfl⟩ := give_eq_ok.mp hgive
  rfl

theorem opened_of_raise {f : Flag} (hraise : g.raise f = .ok h) : h.opened = g.opened := by
  obtain ⟨-, -, rfl⟩ := raise_eq_ok.mp hraise
  rfl

theorem opened_of_take (hg : g.opened = none) (htake : g.take p = .ok h) : h.opened = none := by
  cases p with
  | setting s v => exact opened_of_give htake
  | flag f => rw [opened_of_raise htake, hg]
  | name n =>
    obtain ⟨-, rfl⟩ := take_name_eq_ok.mp htake
    exact hg

theorem opened_of_takeAll (hg : g.opened = none) (htake : g.takeAll ps = .ok h) : h.opened = none := by
  induction ps generalizing g with
  | nil =>
    cases htake
    exact hg
  | cons p ps ih =>
    rw [takeAll_cons] at htake
    cases hp : g.take p with
    | error e =>
      rw [hp] at htake
      cases htake
    | ok g₁ =>
      rw [hp] at htake
      exact ih (opened_of_take hg hp) htake

/-! ## Words -/

theorem giveOrOpen_of_opened {s : Setting} {v : Option String} (hg : g.opened = none) :
    g.giveOrOpen s v =
      match v with
      | some v => g.give s v
      | none => .ok (g.opening (some s)) := by
  rw [giveOrOpen, settle_of_opened hg]
  rfl

theorem map_opening_of_take (hg : g.opened = none) :
    (g.take p).map (·.opening none) = g.take p := by
  cases hp : g.take p with
  | error e => rfl
  | ok h => exact congrArg Except.ok (opening_none (opened_of_take hg hp))

theorem readLetters_eq (hl : Letters place cs ps o) (hg : g.opened = none) :
    g.readLetters place cs = (g.takeAll ps).map (·.opening o) := by
  induction hl generalizing g with
  | nil => exact congrArg Except.ok (opening_none hg).symm
  | @flag c cs f ps o known _ ih =>
    simp only [readLetters, known, settle_of_opened hg, Except.bind]
    rw [takeAll_cons, take]
    cases hf : g.raise f with
    | error e => rfl
    | ok g₁ => exact ih ((opened_of_raise hf).trans hg)
  | @value c d v s known bare =>
    rw [takeAll_singleton, map_opening_of_take hg]
    simp only [readLetters, known, giveOrOpen_of_opened hg, take]
    simp [bare]
  | equals known =>
    rw [takeAll_singleton, map_opening_of_take hg, readLetters, known]
    simp only [giveOrOpen_of_opened hg, take]
  | opened known =>
    rw [readLetters, known]
    simp only [giveOrOpen_of_opened hg]
    rfl

theorem ofName?_eq_some {verb : Verb} : Verb.ofName? arg = some verb ↔ arg = verb.name := by
  constructor
  · intro h
    unfold Verb.ofName? at h
    simpa [eq_comm] using List.find?_some h
  · rintro rfl
    cases verb <;> rfl

theorem formOf_name (verb : Verb) : formOf verb.name = .plain := by
  cases verb <;> rfl

theorem not_command (h : formOf arg ≠ .plain) : Verb.ofName? arg = none ∧ arg ≠ helpName := by
  constructor
  · apply Option.eq_none_iff_forall_ne_some.mpr
    intro verb hverb
    exact h (ofName?_eq_some.mp hverb ▸ formOf_name verb)
  · rintro rfl
    exact h rfl

def readForm (place : Option Verb) (g : Given) (args : List String)
    (plain : Except UsageError (Given × Option (Verb × List String))) :
    Form → Except UsageError (Given × Option (Verb × List String))
  | .ending => readSide place true g args
  | .long n v => (g.readLong place n v).bind (readSide place false · args)
  | .letters cs => (g.readLetters place cs).bind (readSide place false · args)
  | .plain => plain

theorem readSide_next (hg : g.awaitsValue = false) :
    readSide place false g (arg :: args) =
      match (if place.isNone then Verb.ofName? arg else none) with
      | some verb => .ok (g, some (verb, args))
      | none =>
        if place.isNone ∧ arg = helpName then .error (readHelp args)
        else readForm place g args ((readPlain place false g arg).bind (readSide place false · args)) (formOf arg) := by
  -- With this in the context, simp rules out the branch for a value that is still to come.
  have hopened : ∀ s, g.opened ≠ some (s, none) := by
    intro s hs
    simp [awaitsValue, hs] at hg
  cases hverb : (if place.isNone then Verb.ofName? arg else none) with
  | some verb => simp only [readSide, hg, hverb, Bool.false_eq_true, not_false_eq_true, and_true]
  | none =>
    cases hform : formOf arg <;>
      simp only [readSide, readForm, hg, hverb, hform, Bool.false_eq_true, not_false_eq_true, and_true, true_and]

theorem readSide_awaiting {s : Setting} (hg : g.opened = some (s, none)) :
    readSide place false g (arg :: args) =
      readForm place g args (readSide place false { g with opened := some (s, some arg) } args) (formOf arg) := by
  have hawaits : g.awaitsValue = true := by simp only [awaitsValue, hg]
  cases hform : formOf arg <;>
    simp only [readSide, readForm, hawaits, hg, hform, not_true_eq_false, and_false, false_and, if_false]

theorem readSide_of_form (hg : g.opened = none) (h : formOf arg ≠ .plain) :
    readSide place false g (arg :: args) =
      readForm place g args ((readPlain place false g arg).bind (readSide place false · args)) (formOf arg) := by
  obtain ⟨hverb, hhelp⟩ := not_command h
  rw [readSide_next (awaitsValue_of_opened hg), hverb, ite_self]
  simp only [hhelp, and_false, if_false]

theorem readSide_word (hw : Word place arg ps o) (hg : g.opened = none) :
    readSide place false g (arg :: args) =
      ((g.takeAll ps).map (·.opening o)).bind (readSide place false · args) := by
  cases hw with
  | flag known =>
    obtain ⟨hne, hn⟩ := long_name known
    have hform := formOf_long hne hn
    rw [readSide_of_form hg (hform ▸ nofun), hform, takeAll_singleton, map_opening_of_take hg]
    simp only [readForm, readLong, known, settle_of_opened hg]
    rfl
  | opened known =>
    obtain ⟨hne, hn⟩ := long_name known
    have hform := formOf_long hne hn
    rw [readSide_of_form hg (hform ▸ nofun), hform]
    simp only [readForm, readLong, known, giveOrOpen_of_opened hg]
    rfl
  | @equals n s v known =>
    obtain ⟨hne, hn⟩ := long_name known
    have hform := formOf_equals v hne hn
    rw [readSide_of_form hg (hform ▸ nofun), hform, takeAll_singleton, map_opening_of_take hg]
    simp only [readForm, readLong, known, giveOrOpen_of_opened hg]
    rfl
  | @letters cs ps o hcs ls =>
    have hform : formOf ("-" ++ String.ofList cs) = .letters cs := by
      cases ls with
      | nil => exact absurd rfl hcs
      | flag known => exact formOf_letters (letter_ne_hyphen known)
      | value known => exact formOf_letters (letter_ne_hyphen known)
      | equals known => exact formOf_letters (letter_ne_hyphen known)
      | opened known => exact formOf_letters (letter_ne_hyphen known)
    rw [readSide_of_form hg (hform ▸ nofun), hform]
    simp only [readForm, readLetters_eq ls hg]

/-! ## Settling -/

/-- The open setting is taken before anything else is read. -/
def SettlesFirst {α : Type} (read : Given → Except UsageError α) : Prop :=
  ∀ g : Given, (read g).toOption = g.settle.toOption.bind fun h => (read h).toOption

section
variable {α β : Type} {read : Given → Except UsageError α}

theorem opened_of_settle (h₁ : g.settle = .ok h) : h.opened = none := by
  unfold settle at h₁
  split at h₁
  next hg =>
    cases h₁
    exact hg
  next => cases h₁
  next => exact opened_of_give h₁

theorem settlesFirst_settle (next : Given → Except UsageError α) : SettlesFirst fun g => g.settle.bind next := by
  intro g
  simp only [toOption_bind]
  cases hs : g.settle with
  | error e => rfl
  | ok h =>
    have hh := settle_of_opened (opened_of_settle hs)
    simp [hh, Except.toOption]

theorem settlesFirst_error (e : UsageError) : SettlesFirst fun _ => (.error e : Except UsageError α) := by
  intro g
  cases g.settle <;> rfl

theorem SettlesFirst.bind (hread : SettlesFirst read) (next : α → Except UsageError β) :
    SettlesFirst fun g => (read g).bind next := by
  intro g
  simp only [toOption_bind, hread g, Option.bind_assoc]

theorem settlesFirst_giveOrOpen (s : Setting) (v : Option String) : SettlesFirst (giveOrOpen · s v) :=
  settlesFirst_settle _

theorem settlesFirst_readLong (place : Option Verb) (n : String) (v : Option String) :
    SettlesFirst (readLong place · n v) := by
  unfold readLong
  cases ofLong? place n with
  | none => exact settlesFirst_error _
  | some x =>
    cases x with
    | setting s => exact settlesFirst_giveOrOpen s v
    | flag f =>
      cases v with
      | none => exact settlesFirst_settle _
      | some v => exact settlesFirst_error _

theorem settlesFirst_readLetters (place : Option Verb) (c : Char) (cs : List Char) :
    SettlesFirst (readLetters place · (c :: cs)) := by
  simp only [readLetters]
  cases ofLetter? place c with
  | none => exact settlesFirst_error _
  | some x =>
    cases x with
    | setting s => exact settlesFirst_giveOrOpen s _
    | flag f => exact (settlesFirst_settle _).bind _

theorem name_of_settle (h₁ : g.settle = .ok h) : h.name = g.name := by
  unfold settle at h₁
  split at h₁
  next =>
    cases h₁
    rfl
  next => cases h₁
  next =>
    obtain ⟨-, -, rfl⟩ := give_eq_ok.mp h₁
    rfl

theorem settlesFirst_readPlain (place : Option Verb) (ended : Bool) (arg : String) :
    SettlesFirst (readPlain place ended · arg) := by
  cases place with
  | none =>
    simp only [readPlain]
    split
    · exact settlesFirst_error _
    · exact settlesFirst_error _
  | some verb =>
    intro g
    simp only [readPlain]
    cases hs : g.settle with
    | error e =>
      split <;> rfl
    | ok h =>
      simp only [Except.toOption, Option.bind_some, settle_of_opened (opened_of_settle hs), name_of_settle hs]

def readThrough (place : Option Verb) (ended : Bool) (g : Given) (args : List String) :
    Except UsageError (Given × Option (Verb × List String)) :=
  (readSide place ended g args).bind fun x => x.1.settle.map (·, x.2)

theorem readThrough_eq_ok {ended : Bool} {found : Option (Verb × List String)} :
    readThrough place ended g args = .ok (h, found) ↔
      ∃ g₁, readSide place ended g args = .ok (g₁, found) ∧ g₁.settle = .ok h := by
  constructor
  · intro hread
    obtain ⟨⟨g₁, found₁⟩, hside, hread⟩ := bind_eq_ok.mp hread
    obtain ⟨h₁, hs, hread⟩ := bind_eq_ok.mp hread
    cases hread
    exact ⟨g₁, hside, hs⟩
  · rintro ⟨g₁, hside, hs⟩
    rw [readThrough, hside]
    exact congrArg (Except.map _) hs

theorem settlesFirst_map_settle (found : Option (Verb × List String)) :
    SettlesFirst fun g => g.settle.map (·, found) := settlesFirst_settle _

theorem settlesFirst_ended (place : Option Verb) (args : List String) :
    SettlesFirst (readThrough place true · args) := by
  cases args with
  | nil => exact settlesFirst_map_settle none
  | cons arg args => exact ((settlesFirst_readPlain place true arg).bind (readSide place true · args)).bind _

theorem readThrough_settle (place : Option Verb) (args : List String) (hg : g.awaitsValue = false) :
    (readThrough place false g args).toOption =
      g.settle.toOption.bind fun h => (readThrough place false h args).toOption := by
  have hcongr {read : Given → Except UsageError (Given × Option (Verb × List String))} (hread : SettlesFirst read)
      (heq : ∀ h : Given, h.awaitsValue = false → readThrough place false h args = read h) :
      (readThrough place false g args).toOption =
        g.settle.toOption.bind fun h => (readThrough place false h args).toOption := by
    rw [heq g hg, hread g]
    cases hs : g.settle with
    | error e => rfl
    | ok h => simp only [Except.toOption, Option.bind_some, heq h (awaitsValue_of_opened (opened_of_settle hs))]
  cases args with
  | nil => exact hcongr (settlesFirst_map_settle none) fun h _ => rfl
  | cons arg args =>
    refine hcongr ?_ fun h hh => congrArg (Except.bind · _) (readSide_next hh)
    split
    next verb _ => exact settlesFirst_map_settle _
    next =>
      split
      next => exact settlesFirst_error _
      next =>
        cases hform : formOf arg with
        | ending => exact settlesFirst_ended place args
        | long n v => exact ((settlesFirst_readLong place n v).bind _).bind _
        | plain => exact ((settlesFirst_readPlain place false arg).bind _).bind _
        | letters cs =>
          have hcs := formOf_spec arg
          rw [hform] at hcs
          obtain ⟨c, cs, rfl⟩ := List.exists_cons_of_ne_nil hcs.1
          exact ((settlesFirst_readLetters place c cs).bind _).bind _

end

/-! ## Written arguments -/

theorem readThrough_written {rest : List String} (hw : Written place o ps l) (hg : g.opened = none) :
    (readThrough place false (g.opening o) (l ++ rest)).toOption =
      ((g.takeAll ps).bind (readThrough place false · rest)).toOption := by
  -- Nothing is open between two parts: a value that has just been read may as well be taken at once.
  induction hw generalizing g with
  | nil => rw [opening_none hg]; rfl
  | @word arg ps o qs l w _ ih =>
    rw [opening_none hg, List.cons_append, readThrough, readSide_word w hg, takeAll_append]
    cases hps : g.takeAll ps with
    | error e => rfl
    | ok h => exact ih (opened_of_takeAll hg hps)
  | @value s v ps l plain _ ih =>
    let held : Given := { g with opened := some (s, some v) }
    have hread : readThrough place false (g.opening (some s)) (v :: l ++ rest) =
        readThrough place false held (l ++ rest) := by
      rw [List.cons_append, readThrough, readSide_awaiting rfl, formOf_plain plain]
      rfl
    have hsettle : held.settle = g.take (.setting s v) := rfl
    rw [hread, readThrough_settle place _ rfl, hsettle, takeAll_cons]
    cases hp : g.take (.setting s v) with
    | error e => rfl
    | ok h =>
      have hh := opened_of_take hg hp
      exact opening_none hh ▸ ih hh
  | @name verb n ps l after takes plain _ ih =>
    have hread : readThrough place false g (n :: l ++ rest) =
        (g.take (.name n)).bind (readThrough place false · (l ++ rest)) := by
      rw [List.cons_append, readThrough, readSide_next (awaitsValue_of_opened hg), after, formOf_plain plain]
      simp only [Option.isNone_some, Bool.false_eq_true, false_and, if_false, readPlain, takes, settle_of_opened hg,
        take, true_and]
      split
      · rfl
      · rfl
    rw [opening_none hg, hread, takeAll_cons]
    cases hp : g.take (.name n) with
    | error e => rfl
    | ok h =>
      have hh := opened_of_take hg hp
      exact opening_none hh ▸ ih hh

/-! ## What is read is written -/

theorem awaited_of_opened (hg : g.opened = none) : g.awaited = none := by
  simp only [awaited, hg]

theorem awaited_of_settle (hs : g.settle = .ok h) : g.awaited = none := by
  unfold settle at hs
  split at hs
  next hg => exact awaited_of_opened hg
  next => cases hs
  next hg => simp only [awaited, hg]

theorem awaited_of_giveOrOpen {s : Setting} {v : Option String} (hread : g.giveOrOpen s v = .ok h) :
    h.awaited = v.elim (some s) fun _ => none := by
  obtain ⟨g₁, -, hread⟩ := bind_eq_ok.mp hread
  cases v with
  | none =>
    cases hread
    rfl
  | some v => exact awaited_of_opened (opened_of_give hread)

theorem opened_of_settle_raise {f : Flag} (hread : g.settle.bind (·.raise f) = .ok h) : h.opened = none := by
  obtain ⟨g₁, hs, hf⟩ := bind_eq_ok.mp hread
  rw [opened_of_raise hf, opened_of_settle hs]

theorem exists_letters (hread : g.readLetters place cs = .ok h) (hg : g.awaited = none) :
    ∃ ps, Letters place cs ps h.awaited := by
  induction cs generalizing g with
  | nil =>
    cases hread
    exact ⟨[], hg ▸ .nil⟩
  | cons c cs ih =>
    cases known : ofLetter? place c with
    | none =>
      simp only [readLetters, known] at hread
      cases hread
    | some x =>
      cases x with
      | flag f =>
        simp only [readLetters, known] at hread
        obtain ⟨g₁, hf, hread⟩ := bind_eq_ok.mp hread
        obtain ⟨ps, hps⟩ := ih hread (awaited_of_opened (opened_of_settle_raise hf))
        exact ⟨_, .flag known hps⟩
      | setting s =>
        simp only [readLetters, known] at hread
        rw [awaited_of_giveOrOpen hread]
        cases cs with
        | nil => exact ⟨_, .opened known⟩
        | cons d v =>
          by_cases hd : d = '='
          · subst hd
            exact ⟨_, .equals known⟩
          · have hletters : ∃ ps, Letters place (c :: d :: v) ps none := ⟨_, .value known hd⟩
            simpa [hd] using hletters

theorem exists_word_of_long {n : String} {v : Option String} (hread : g.readLong place n v = .ok h) :
    ∃ ps, Word place (v.elim ("--" ++ n) ("--" ++ n ++ "=" ++ ·)) ps h.awaited := by
  cases known : ofLong? place n with
  | none =>
    simp only [readLong, known] at hread
    cases hread
  | some x =>
    cases x with
    | setting s =>
      simp only [readLong, known] at hread
      rw [awaited_of_giveOrOpen hread]
      cases v with
      | none => exact ⟨_, .opened known⟩
      | some v => exact ⟨_, .equals known⟩
    | flag f =>
      cases v with
      | none =>
        simp only [readLong, known] at hread
        rw [awaited_of_opened (opened_of_settle_raise hread)]
        exact ⟨_, .flag known⟩
      | some v =>
        simp only [readLong, known] at hread
        cases hread

section
variable {found : Option (Verb × List String)}

/-- Only a value can follow a setting that has none: anything else would take the setting first. -/
theorem readSide_awaiting_ok {s : Setting} (hg : g.opened = some (s, none)) (harg : arg ≠ "--")
    (hread : readSide place false g (arg :: args) = .ok (h, found)) :
    Plain arg ∧ readSide place false { g with opened := some (s, some arg) } args = .ok (h, found) := by
  have hstuck {α : Type} {read : Given → Except UsageError α} (hfirst : SettlesFirst read) (a : α) :
      read g ≠ .ok a := by
    intro ha
    have hnone := hfirst g
    simp [ha, settle, hg, Except.toOption] at hnone
  have hspec := formOf_spec arg
  rw [readSide_awaiting hg] at hread
  cases hform : formOf arg with
  | ending =>
    rw [hform] at hspec
    exact absurd hspec harg
  | long n v =>
    rw [hform] at hread
    obtain ⟨g₁, hlong, -⟩ := bind_eq_ok.mp hread
    exact absurd hlong (hstuck (settlesFirst_readLong place n v) g₁)
  | letters cs =>
    rw [hform] at hspec hread
    obtain ⟨c, cs, rfl⟩ := List.exists_cons_of_ne_nil hspec.1
    obtain ⟨g₁, hletters, -⟩ := bind_eq_ok.mp hread
    exact absurd hletters (hstuck (settlesFirst_readLetters place c cs) g₁)
  | plain =>
    rw [hform] at hspec hread
    exact ⟨hspec, hread⟩

theorem readPlain_ok (hread : readPlain place false g arg = .ok h) :
    ∃ verb, place = some verb ∧ verb.takesName ∧ h.awaited = none := by
  cases place with
  | none =>
    simp only [readPlain, Bool.false_eq_true, false_and, if_false] at hread
    cases hread
  | some verb =>
    simp only [readPlain] at hread
    split at hread
    next hname =>
      obtain ⟨g₁, hs, rfl⟩ : ∃ g₁, g.settle = .ok g₁ ∧ { g₁ with name := some arg } = h := by
        cases hs : g.settle with
        | error e =>
          rw [hs] at hread
          cases hread
        | ok g₁ =>
          rw [hs] at hread
          exact ⟨g₁, rfl, Except.ok.inj hread⟩
      have hopened : g₁.opened = none := opened_of_settle hs
      exact ⟨verb, rfl, hname.1, by simp only [awaited, hopened]⟩
    next => cases hread

/-- What a first argument can be where no value is awaited: the command, a word or a name. -/
theorem readSide_next_ok (hg : g.awaited = none) (harg : arg ≠ "--")
    (hread : readSide place false g (arg :: args) = .ok (h, found)) :
    (∃ verb, arg = verb.name ∧ found = some (verb, args) ∧ place = none) ∨
      ∃ g₁, readSide place false g₁ args = .ok (h, found) ∧
        ((∃ ps, Word place arg ps g₁.awaited) ∨
          g₁.awaited = none ∧ Plain arg ∧ ∃ verb, place = some verb ∧ verb.takesName) := by
  have hspec := formOf_spec arg
  rw [readSide_next (by rw [awaitsValue_eq, hg, Option.isSome_none])] at hread
  split at hread
  next verb hverb =>
    cases hread
    split at hverb
    next hplace => exact .inl ⟨verb, ofName?_eq_some.mp hverb, rfl, Option.isNone_iff_eq_none.mp hplace⟩
    next => cases hverb
  next =>
    split at hread
    · cases hread
    · right
      cases hform : formOf arg with
      | ending =>
        rw [hform] at hspec
        exact absurd hspec harg
      | long n v =>
        rw [hform] at hspec hread
        obtain ⟨g₁, hlong, hread⟩ := bind_eq_ok.mp hread
        have htext : arg = v.elim ("--" ++ n) ("--" ++ n ++ "=" ++ ·) := by
          cases v <;> exact hspec
        exact ⟨g₁, hread, .inl (htext ▸ exists_word_of_long hlong)⟩
      | letters cs =>
        rw [hform] at hspec hread
        obtain ⟨hcs, rfl⟩ := hspec
        obtain ⟨g₁, hletters, hread⟩ := bind_eq_ok.mp hread
        obtain ⟨ps, hps⟩ := exists_letters hletters hg
        exact ⟨g₁, hread, .inl ⟨ps, .letters hcs hps⟩⟩
      | plain =>
        rw [hform] at hspec hread
        obtain ⟨g₁, hplain, hread⟩ := bind_eq_ok.mp hread
        obtain ⟨verb, hplace, htakes, hawaited⟩ := readPlain_ok hplain
        exact ⟨g₁, hread, .inr ⟨hawaited, hspec, verb, hplace, htakes⟩⟩

def fromCommand : Option (Verb × List String) → List String
  | none => []
  | some (verb, rest) => verb.name :: rest

/-- All that is read without an error is written, up to the command or the end. -/
theorem written_of_readSide (hopen : "--" ∉ args) (hread : readSide place false g args = .ok (h, found))
    (hend : h.awaited = none) :
    (∃ ps l, Written place g.awaited ps l ∧ args = l ++ fromCommand found) ∧ (place ≠ none → found = none) := by
  induction args generalizing g with
  | nil =>
    cases hread
    exact ⟨⟨[], [], hend ▸ .nil, rfl⟩, fun _ => rfl⟩
  | cons arg args ih =>
    obtain ⟨harg, hopen⟩ := not_or.mp (List.mem_cons.not.mp hopen)
    cases hg : g.awaited with
    | some s =>
      have hopened : g.opened = some (s, none) := by
        unfold awaited at hg
        split at hg
        next hs => rw [hs, Option.some.inj hg]
        next => cases hg
      obtain ⟨hplain, hread⟩ := readSide_awaiting_ok hopened (Ne.symm harg) hread
      obtain ⟨⟨ps, l, hps, rfl⟩, hfound⟩ := ih hopen hread
      exact ⟨⟨_, _, .value hplain hps, rfl⟩, hfound⟩
    | none =>
      obtain ⟨verb, rfl, rfl, hplace⟩ | ⟨g₁, hread, hnext⟩ := readSide_next_ok hg (Ne.symm harg) hread
      · exact ⟨⟨[], [], .nil, rfl⟩, fun hne => absurd hplace hne⟩
      · obtain ⟨⟨qs, l, hqs, rfl⟩, hfound⟩ := ih hopen hread
        obtain ⟨ps, hw⟩ | ⟨hawaited, hplain, verb, hplace, htakes⟩ := hnext
        · exact ⟨⟨_, _, .word hw hqs, rfl⟩, hfound⟩
        · exact ⟨⟨_, _, .name hplace htakes hplain (hawaited ▸ hqs), rfl⟩, hfound⟩

end

end PresetWorkspace.CommandLine.Given
