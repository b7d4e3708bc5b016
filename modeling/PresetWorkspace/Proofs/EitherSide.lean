import PresetWorkspace.Proofs.FolderEntries
import PresetWorkspace.Proofs.Sides
import Mathlib.Data.List.Induction

/-!
# Options on either side of the command

A side of the command is read as the parts that it writes, if these fit
together (`takeAll_empty`). What can stand before the command means the
same after it (`command_of`, `combine_of`), so an accepted command line depends
on the parts of both sides taken together, and without repeated options not on
their order either (`of_perm`).
-/

namespace PresetWorkspace.CommandLine

namespace Part

def setting? : Part → Option (Setting × String)
  | .setting s v => some (s, v)
  | _ => none

def flag? : Part → Option Flag
  | .flag f => some f
  | _ => none

def name? : Part → Option String
  | .name n => some n
  | _ => none

/-- Whether a part can be taken at all: a value must be one that its setting may have, and who asks for help or the
    version gets nothing else. -/
def Allowed : Part → Prop
  | .setting s v => s.accepts v
  | .flag f => f ≠ .help ∧ f ≠ .version
  | .name _ => True

end Part

/-- Parts that one side of the command may have: allowed ones, every option once and at most one name. -/
def Fits (ps : List Part) : Prop := (ps.map Part.option?).Nodup ∧ ∀ p ∈ ps, p.Allowed

def Given.of (ps : List Part) : Given where
  settings := ps.filterMap Part.setting?
  flags := ps.filterMap Part.flag?
  name := (ps.filterMap Part.name?).head?

section
variable {p : Part} {ps qs : List Part}

theorem Fits.of_sublist (hqs : Fits qs) (h : ps.Sublist qs) : Fits ps :=
  ⟨hqs.1.sublist (h.map _), fun p hp => hqs.2 p (h.subset hp)⟩

theorem Fits.perm (hps : Fits ps) (h : ps.Perm qs) : Fits qs :=
  ⟨(h.map _).nodup_iff.mp hps.1, fun p hp => hps.2 p (h.mem_iff.mpr hp)⟩

theorem fits_snoc : Fits (ps ++ [p]) ↔ Fits ps ∧ p.option? ∉ ps.map Part.option? ∧ p.Allowed := by
  rw [Fits, Fits, List.map_append, List.nodup_append_comm]
  simp only [List.map_singleton, List.singleton_append, List.nodup_cons, List.forall_mem_append,
    List.forall_mem_singleton]
  tauto

/-! ## Taking parts -/

theorem mem_flags_iff {f : Flag} : f ∈ (Given.of ps).flags ↔ some (.flag f) ∈ ps.map Part.option? := by
  simp only [Given.of, List.mem_filterMap, List.mem_map]
  apply exists_congr
  intro p
  cases p <;> simp [Part.flag?, Part.option?]

theorem lookup_isSome_iff {s : Setting} :
    ((Given.of ps).settings.lookup s).isSome ↔ some (.setting s) ∈ ps.map Part.option? := by
  induction ps with
  | nil => simp [Given.of]
  | cons p ps ih =>
    cases p with
    | setting s' v =>
      have hsettings : (Given.of (.setting s' v :: ps)).settings = (s', v) :: (Given.of ps).settings := rfl
      by_cases hs : s = s'
      · simp [hsettings, hs, Part.option?]
      · simp [hsettings, List.lookup_cons, beq_false_of_ne hs, hs, ih, Part.option?]
    | flag f => simpa [Given.of, Part.setting?, Part.option?] using ih
    | name n => simpa [Given.of, Part.setting?, Part.option?] using ih

theorem name_eq_none_iff : (Given.of ps).name = none ↔ none ∉ ps.map Part.option? := by
  simp only [Given.of, List.head?_eq_none_iff, List.filterMap_eq_nil_iff, List.mem_map, not_exists, not_and]
  apply forall₂_congr
  intro p _
  cases p <;> simp [Part.name?, Part.option?]

theorem take_of {h : Given} (hps : Fits ps) :
    (Given.of ps).take p = .ok h ↔ Fits (ps ++ [p]) ∧ h = Given.of (ps ++ [p]) := by
  rw [fits_snoc]
  simp only [hps, true_and]
  cases p with
  | setting s v =>
    have hof : Given.of (ps ++ [.setting s v]) =
        { Given.of ps with settings := (Given.of ps).settings ++ [(s, v)], opened := none } := by
      simp [Given.of, Part.setting?, Part.flag?, Part.name?]
    rw [Given.take, Given.give_eq_ok, ← Bool.not_eq_true, lookup_isSome_iff, hof, and_assoc]
    rfl
  | flag f =>
    have hof : Given.of (ps ++ [.flag f]) = { Given.of ps with flags := (Given.of ps).flags ++ [f] } := by
      simp [Given.of, Part.setting?, Part.flag?, Part.name?]
    rw [Given.take, Given.raise_eq_ok, mem_flags_iff, hof, ← and_assoc, and_comm (a := _ ≠ _ ∧ _)]
    rfl
  | name n =>
    rw [Given.take_name_eq_ok]
    constructor
    · rintro ⟨hname, rfl⟩
      have hof : Given.of (ps ++ [.name n]) = { Given.of ps with name := some n } := by
        simp only [Given.of, List.head?_eq_none_iff] at hname
        simp [Given.of, Part.setting?, Part.flag?, Part.name?, hname]
      exact ⟨⟨name_eq_none_iff.mp hname, trivial⟩, hof.symm⟩
    · rintro ⟨⟨hnone, -⟩, rfl⟩
      have hname := name_eq_none_iff.mpr hnone
      refine ⟨hname, ?_⟩
      simp only [Given.of, List.head?_eq_none_iff] at hname
      simp [Given.of, Part.setting?, Part.flag?, Part.name?, hname]

/-- Parts can be taken one after the other exactly if they fit together. -/
theorem takeAll_empty {h : Given} : ({} : Given).takeAll ps = .ok h ↔ Fits ps ∧ h = Given.of ps := by
  induction ps using List.reverseRecOn generalizing h with
  | nil => simp [Given.takeAll, Fits, Given.of, pure, Except.pure, eq_comm]
  | append_singleton ps p ih =>
    simp only [Given.takeAll_append, Given.takeAll_singleton]
    constructor
    · intro htake
      obtain ⟨g, hg, hp⟩ := bind_eq_ok.mp htake
      obtain ⟨hps, rfl⟩ := ih.mp hg
      exact (take_of hps).mp hp
    · rintro ⟨hfits, rfl⟩
      have hps := (fits_snoc.mp hfits).1
      rw [ih.mpr ⟨hps, rfl⟩]
      exact (take_of hps).mpr ⟨hfits, rfl⟩

end

/-! ## Lines -/

section
variable {args : List String} {i : Invocation} {verb : Verb} {before after : List Part}

theorem readThrough_written_ok {place : Option Verb} {ps : List Part} {l : List String} (rest : List String)
    (x : Given × Option (Verb × List String)) (hw : Written place none ps l) :
    Given.readThrough place false {} (l ++ rest) = .ok x ↔
      Fits ps ∧ Given.readThrough place false (Given.of ps) rest = .ok x := by
  rw [← toOption_eq_some, ← Given.opening_none (g := {}) rfl, Given.readThrough_written hw rfl, toOption_eq_some]
  constructor
  · intro h
    obtain ⟨g, hg, hrest⟩ := bind_eq_ok.mp h
    obtain ⟨hps, rfl⟩ := takeAll_empty.mp hg
    exact ⟨hps, hrest⟩
  · rintro ⟨hps, hrest⟩
    rw [takeAll_empty.mpr ⟨hps, rfl⟩]
    exact hrest

/-- A command line is accepted if both sides can be read through and a command can be given after its name. -/
theorem parse_eq_ok :
    parse args = .ok i ↔
      ∃ b verb rest a found command, Given.readThrough none false {} args = .ok (b, some (verb, rest)) ∧
        Given.readThrough (some verb) false {} rest = .ok (a, found) ∧
          a.command verb = .ok command ∧ combine b a command = i := by
  simp only [Given.readThrough_eq_ok]
  constructor
  · intro h
    obtain ⟨⟨b₀, found⟩, hbefore, h⟩ := bind_eq_ok.mp h
    cases found with
    | none =>
      obtain ⟨b, -, h⟩ := bind_eq_ok.mp h
      cases h
    | some x =>
      obtain ⟨⟨a₀, found⟩, hafter, h⟩ := bind_eq_ok.mp h
      obtain ⟨a, ha, h⟩ := bind_eq_ok.mp h
      obtain ⟨command, hcommand, h⟩ := bind_eq_ok.mp h
      obtain ⟨b, hb, h⟩ := bind_eq_ok.mp h
      exact ⟨b, x.1, x.2, a, found, command, ⟨b₀, hbefore, hb⟩, ⟨a₀, hafter, ha⟩, hcommand, Except.ok.inj h⟩
  · rintro ⟨b, verb, rest, a, found, command, ⟨b₀, hbefore, hb⟩, ⟨a₀, hafter, ha⟩, hcommand, rfl⟩
    simp only [parse, hbefore, hafter, bind, Except.bind, ha, hb, hcommand]
    rfl

theorem line_eq_ok (hline : Line args before verb after) :
    parse args = .ok i ↔
      Fits before ∧ Fits after ∧
        ∃ command, (Given.of after).command verb = .ok command ∧
          combine (Given.of before) (Given.of after) command = i := by
  obtain ⟨l, r, rfl, hbefore, hafter⟩ := hline
  have hverb : Given.readThrough none false (Given.of before) (verb.name :: r) =
      .ok (Given.of before, some (verb, r)) := by
    rw [Given.readThrough, Given.readSide_next rfl, Option.isNone_none, if_pos rfl, Given.ofName?_eq_some.mpr rfl]
    rfl
  have hend : Given.readThrough (some verb) false (Given.of after) [] = .ok (Given.of after, none) := rfl
  have hr := fun x => readThrough_written_ok [] x hafter
  simp only [List.append_nil, hend] at hr
  simp only [parse_eq_ok, readThrough_written_ok _ _ hbefore, hverb]
  constructor
  · rintro ⟨b, verb', rest, a, found, command, ⟨hb, hl⟩, ha, hcommand, hi⟩
    cases hl
    obtain ⟨hfits, hl⟩ := (hr _).mp ha
    cases hl
    exact ⟨hb, hfits, command, hcommand, hi⟩
  · rintro ⟨hb, ha, command, hcommand, hi⟩
    exact ⟨_, _, _, _, _, command, ⟨hb, rfl⟩, (hr _).mpr ⟨ha, rfl⟩, hcommand, hi⟩

theorem exists_line (h : parse args = .ok i) (hopen : "--" ∉ args) :
    ∃ before verb after, Line args before verb after := by
  obtain ⟨b, verb, rest, a, found, command, hbefore, hafter, -, -⟩ := parse_eq_ok.mp h
  obtain ⟨b₀, hbefore, hb⟩ := Given.readThrough_eq_ok.mp hbefore
  obtain ⟨a₀, hafter, ha⟩ := Given.readThrough_eq_ok.mp hafter
  obtain ⟨⟨before, l, hl, rfl⟩, -⟩ := Given.written_of_readSide hopen hbefore (Given.awaited_of_settle hb)
  have hrest : "--" ∉ rest := fun hmem => hopen (List.mem_append_right l (List.mem_cons_of_mem _ hmem))
  obtain ⟨⟨after, r, hr, rfl⟩, hfound⟩ := Given.written_of_readSide hrest hafter (Given.awaited_of_settle ha)
  rw [hfound nofun, Given.fromCommand, List.append_nil]
  exact ⟨before, verb, after, l, r, rfl, hl, hr⟩

end

/-! ## Both sides together -/

section
variable {ps qs before after : List Part}

theorem option_of_global {p : Part} (h : p.Global) :
    p.option? ≠ none ∧ p.option? ≠ some (.setting .format) ∧ p.option? ≠ some (.flag .dryRun) := by
  have known : ∀ y ∈ spellings none, y.switch ≠ .setting .format ∧ y.switch ≠ .flag .dryRun := by decide
  obtain ⟨y, hy, hp⟩ := h
  obtain ⟨hformat, hdryRun⟩ := known y hy
  rw [hp]
  exact ⟨nofun, by simpa using hformat, by simpa using hdryRun⟩

theorem lookup_append (s : Setting) :
    (Given.of (ps ++ qs)).settings.lookup s =
      ((Given.of ps).settings.lookup s).or ((Given.of qs).settings.lookup s) := by
  simp only [Given.of, List.filterMap_append, List.lookup_append]

theorem mem_flags_append {f : Flag} :
    f ∈ (Given.of (ps ++ qs)).flags ↔ f ∈ (Given.of ps).flags ∨ f ∈ (Given.of qs).flags := by
  simp only [Given.of, List.filterMap_append, List.mem_append]

theorem name_append : (Given.of (ps ++ qs)).name = (Given.of ps).name.or (Given.of qs).name := by
  simp only [Given.of, List.filterMap_append, List.head?_append]

/-- What is given on both sides comes to what is given on one. -/
theorem combine_of (command : Command) :
    combine (Given.of before) (Given.of after) command = combine {} (Given.of (after ++ before)) command := by
  simp [combine, lookup_append, mem_flags_append]

/-- A command does not look at what can stand before it. -/
theorem command_of (verb : Verb) (h : ∀ p ∈ before, p.Global) :
    (Given.of after).command verb = (Given.of (after ++ before)).command verb := by
  have hother (x : Option Switch) (hx : ∀ p : Part, p.Global → p.option? ≠ x) : x ∉ before.map Part.option? := by
    intro hmem
    obtain ⟨p, hp, rfl⟩ := List.mem_map.mp hmem
    exact hx p (h p hp) rfl
  have hname : (Given.of before).name = none := name_eq_none_iff.mpr (hother _ fun _ hp => (option_of_global hp).1)
  have hformat : (Given.of before).settings.lookup .format = none := by
    rw [← Option.not_isSome_iff_eq_none, lookup_isSome_iff]
    exact hother _ fun _ hp => (option_of_global hp).2.1
  have hdryRun : .dryRun ∉ (Given.of before).flags := by
    rw [mem_flags_iff]
    exact hother _ fun _ hp => (option_of_global hp).2.2
  simp only [Given.command, lookup_append, name_append, mem_flags_append, hname, hformat, hdryRun, Option.or_none,
    or_false]

theorem settings_nodup (h : (ps.map Part.option?).Nodup) : ((Given.of ps).settings.map (·.1)).Nodup := by
  apply List.Nodup.of_map fun s => some (Switch.setting s)
  have hsub : (((Given.of ps).settings.map (·.1)).map fun s => some (Switch.setting s)).Sublist
      (ps.map Part.option?) := by
    clear h
    induction ps with
    | nil => exact List.Sublist.slnil
    | cons p ps ih =>
      cases p with
      | setting s v => exact ih.cons_cons _
      | flag f => exact ih.cons _
      | name n => exact ih.cons _
  exact h.sublist hsub

theorem name_eq_some_iff (h : (ps.map Part.option?).Nodup) {n : String} :
    (Given.of ps).name = some n ↔ .name n ∈ ps := by
  induction ps with
  | nil => simp [Given.of]
  | cons p ps ih =>
    rw [List.map_cons, List.nodup_cons] at h
    cases p with
    | setting s v =>
      rw [List.mem_cons, ← ih h.2]
      simp [Given.of, List.filterMap_cons, Part.name?]
    | flag f =>
      rw [List.mem_cons, ← ih h.2]
      simp [Given.of, List.filterMap_cons, Part.name?]
    | name m =>
      have hn : .name n ∉ ps := fun hmem => h.1 (List.mem_map.mpr ⟨_, hmem, rfl⟩)
      simp [Given.of, Part.name?, hn, eq_comm]

/-- Parts that fit together mean the same in every order. -/
theorem of_perm (hps : Fits ps) (h : ps.Perm qs) :
    (∀ verb, (Given.of ps).command verb = (Given.of qs).command verb) ∧
      ∀ command, combine {} (Given.of ps) command = combine {} (Given.of qs) command := by
  have hsettings (s : Setting) : (Given.of ps).settings.lookup s = (Given.of qs).settings.lookup s :=
    FileTree.lookup_perm (h.filterMap _) (settings_nodup hps.1) s
  have hflags (f : Flag) : f ∈ (Given.of ps).flags ↔ f ∈ (Given.of qs).flags := (h.filterMap _).mem_iff
  have hname : (Given.of ps).name = (Given.of qs).name := by
    ext n
    rw [name_eq_some_iff hps.1, name_eq_some_iff (hps.perm h).1, h.mem_iff]
  constructor
  · intro verb
    simp only [Given.command, hsettings, hflags, hname]
  · intro command
    simp only [combine, hsettings, hflags]

/-- Options that are not repeated on one side or across both fit together. -/
theorem Fits.both (hbefore : Fits before) (hafter : Fits after) (hglobal : ∀ p ∈ before, p.Global)
    (honce : ((before ++ after).filterMap Part.option?).Nodup) : Fits (after ++ before) := by
  refine ⟨?_, List.forall_mem_append.mpr ⟨hafter.2, hbefore.2⟩⟩
  rw [List.map_append, List.nodup_append_comm, List.nodup_append]
  refine ⟨hbefore.1, hafter.1, ?_⟩
  rintro x hx y hy rfl
  obtain ⟨p, hp, rfl⟩ := List.mem_map.mp hx
  obtain ⟨q, hq, hpq⟩ := List.mem_map.mp hy
  obtain ⟨w, hw⟩ := Option.ne_none_iff_exists'.mp (option_of_global (hglobal p hp)).1
  rw [List.filterMap_append, List.nodup_append] at honce
  exact honce.2.2 w (List.mem_filterMap.mpr ⟨p, hp, hw⟩) w (List.mem_filterMap.mpr ⟨q, hq, hpq.trans hw⟩) rfl

theorem Line.global {args : List String} {verb : Verb} (h : Line args before verb after) :
    ∀ p ∈ before, p.Global := by
  obtain ⟨l, r, -, hl, -⟩ := h
  exact hl.global nofun

/-- Arguments that write whole options can be moved from before the command to after it, and back. -/
theorem Line.moved {verb : Verb} {ps ps' qs : List Part} {l l' m r : List String} (hl : Written none none before l)
    (hm : Written none none ps m) (hl' : Written none none ps' l') (hr : Written (some verb) none qs r)
    (hversion : .flag .version ∉ ps) :
    Line (l ++ m ++ l' ++ verb.name :: r) (before ++ ps ++ ps') verb qs ∧
      Line (l ++ l' ++ verb.name :: (m ++ r)) (before ++ ps') verb (ps ++ qs) :=
  ⟨⟨_, _, rfl, (hl.append hm).append hl', hr⟩, ⟨_, _, rfl, hl.append hl', (hm.after hversion).append hr⟩⟩

end

/-- An accepted command line without `--` has parts before and after its command, and if no option is repeated among
these, every line with the same command and parts means the same, whatever the order of the parts, the sides where the
options stand and the ways they are written. -/
theorem parse_either_side {args : List String} {i : Invocation} (h : parse args = .ok i) (hopen : "--" ∉ args) :
    (∃ before verb after, Line args before verb after) ∧
      ∀ before verb after, Line args before verb after → ((before ++ after).filterMap Part.option?).Nodup →
        ∀ args' before' after', Line args' before' verb after' → (before' ++ after').Perm (before ++ after) →
          parse args' = .ok i := by
  refine ⟨exists_line h hopen, ?_⟩
  intro before verb after hline honce args' before' after' hline' hperm
  obtain ⟨hbefore, hafter, command, hcommand, hi⟩ := (line_eq_ok hline).mp h
  have hfits := hbefore.both hafter hline.global honce
  -- Both lines mean what all their parts would mean after the command, and there the order is nothing to them.
  have hperm : (after ++ before).Perm (after' ++ before') :=
    List.perm_append_comm.trans (hperm.symm.trans List.perm_append_comm)
  obtain ⟨hcommands, hcombine⟩ := of_perm hfits hperm
  have hfits' := hfits.perm hperm
  apply (line_eq_ok hline').mpr
  refine ⟨hfits'.of_sublist (List.sublist_append_right _ _), hfits'.of_sublist (List.sublist_append_left _ _),
    command, ?_, ?_⟩
  · rw [command_of verb hline'.global, ← hcommands, ← command_of verb hline.global, hcommand]
  · rw [combine_of, ← hcombine, ← combine_of, hi]

theorem parse_either_side_show :
    let args := ["-vl1", "--user", "bob", "--config=c.yaml", "show", "x", "-f", "json"]
    let moved := ["-vl1", "--config=c.yaml", "show", "--user", "bob", "x", "-f", "json"]
    let mixed := ["-ubob", "show", "-fjson", "--config", "c.yaml", "x", "--log=1", "-v"]
    let i : Invocation := ⟨some "c.yaml", none, none, some "bob", true, "1", .show "x" .json⟩
    parse args = .ok i ∧ "--" ∉ args ∧ parse moved = .ok i ∧ parse mixed = .ok i := by
  intro args moved mixed i
  have hparse : parse args = .ok i := toOption_eq_some.mp (by decide +kernel)
  have hopen : "--" ∉ args := by decide
  have hfront : Written none none [.flag .verbose, .setting .log "1"] ["-vl1"] :=
    .word (@Word.letters none ['v', 'l', '1'] _ _ nofun (.flag rfl (.value rfl (by decide)))) .nil
  have huser : Written none none [.setting .user "bob"] ["--user", "bob"] :=
    .word (.opened (n := "user") rfl) (.value (.inr (by decide)) .nil)
  have hconfig : Written none none [.setting .config "c.yaml"] ["--config=c.yaml"] :=
    .word (.equals (n := "config") (v := "c.yaml") rfl) .nil
  have hafter : Written (some .show) none [.name "x", .setting .format "json"] ["x", "-f", "json"] :=
    .name rfl rfl (.inr (by decide)) <|
      .word (@Word.letters (some .show) ['f'] _ _ nofun (.opened rfl)) (.value (.inr (by decide)) .nil)
  obtain ⟨hargs, hmoved⟩ := Line.moved hfront huser hconfig hafter (by decide)
  have hmixed : Line mixed [.setting .user "bob"] .show
      [.setting .format "json", .setting .config "c.yaml", .name "x", .setting .log "1", .flag .verbose] :=
    ⟨["-ubob"], ["-fjson", "--config", "c.yaml", "x", "--log=1", "-v"], rfl,
      .word (@Word.letters none ['u', 'b', 'o', 'b'] _ _ nofun (.value rfl (by decide))) .nil,
      .word (@Word.letters (some .show) ['f', 'j', 's', 'o', 'n'] _ _ nofun (.value rfl (by decide))) <|
        .word (.opened (n := "config") rfl) <| .value (.inr (by decide)) <| .name rfl rfl (.inr (by decide)) <|
          .word (.equals (n := "log") (v := "1") rfl) <|
            .word (@Word.letters (some .show) ['v'] _ _ nofun (.flag rfl .nil)) .nil⟩
  obtain ⟨-, hsame⟩ := parse_either_side hparse hopen
  have hsame := hsame _ _ _ hargs (by decide)
  exact ⟨hparse, hopen, hsame _ _ _ hmoved (by decide), hsame _ _ _ hmixed (by decide)⟩

end PresetWorkspace.CommandLine
