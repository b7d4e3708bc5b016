import PresetWorkspace.CommandLine.Invocation
import Mathlib.Data.List.TakeDrop

/-!
# Arguments

A command line is made of parts: settings with their values, flags and the
name of a preset. One part can be written in many ways: by a long name or a
letter, with its value in the same argument or in the next, alone or after
other letters. `Written` says which arguments write which parts, and `Line`
which command lines write which parts before and after which command.
-/

namespace PresetWorkspace.CommandLine

inductive Part where
  | setting (s : Setting) (value : String)
  | flag (f : Flag)
  | name (n : String)
  deriving DecidableEq

def Part.option? : Part → Option Switch
  | .setting s _ => some (.setting s)
  | .flag f => some (.flag f)
  | .name _ => none

def Plain (arg : String) : Prop := arg = "-" ∨ arg.toList.head? ≠ some '-'

inductive Letters (place : Option Verb) : List Char → List Part → Option Setting → Prop where
  | nil : Letters place [] [] none
  | flag {c cs f ps o} (known : ofLetter? place c = some (.flag f)) (rest : Letters place cs ps o) :
      Letters place (c :: cs) (.flag f :: ps) o
  | value {c d v s} (known : ofLetter? place c = some (.setting s)) (bare : d ≠ '=') :
      Letters place (c :: d :: v) [.setting s (String.ofList (d :: v))] none
  | equals {c v s} (known : ofLetter? place c = some (.setting s)) :
      Letters place (c :: '=' :: v) [.setting s (String.ofList v)] none
  | opened {c s} (known : ofLetter? place c = some (.setting s)) : Letters place [c] [] (some s)

/-- An argument that starts with a hyphen, the parts that it gives, and the setting that it leaves without its
    value. -/
inductive Word (place : Option Verb) : String → List Part → Option Setting → Prop where
  | flag {n f} (known : ofLong? place n = some (.flag f)) : Word place ("--" ++ n) [.flag f] none
  | opened {n s} (known : ofLong? place n = some (.setting s)) : Word place ("--" ++ n) [] (some s)
  | equals {n s v} (known : ofLong? place n = some (.setting s)) :
      Word place ("--" ++ n ++ "=" ++ v) [.setting s v] none
  | letters {cs ps o} (some_letter : cs ≠ []) (ls : Letters place cs ps o) : Word place ("-" ++ String.ofList cs) ps o

/-- The arguments on one side of the command and the parts that they give, after a setting that still has no
    value, if there is one. -/
inductive Written (place : Option Verb) : Option Setting → List Part → List String → Prop where
  | nil : Written place none [] []
  | word {arg ps o qs l} (w : Word place arg ps o) (rest : Written place o qs l) :
      Written place none (ps ++ qs) (arg :: l)
  | value {s v ps l} (plain : Plain v) (rest : Written place none ps l) :
      Written place (some s) (.setting s v :: ps) (v :: l)
  | name {verb n ps l} (after : place = some verb) (takes : verb.takesName) (plain : Plain n)
      (rest : Written place none ps l) : Written place none (.name n :: ps) (n :: l)

/-- A command line and the parts that it gives before and after its command. -/
def Line (args : List String) (before : List Part) (verb : Verb) (after : List Part) : Prop :=
  ∃ l r, args = l ++ verb.name :: r ∧ Written none none before l ∧ Written (some verb) none after r

/-! ## Names and letters -/

section
variable {place : Option Verb} {n arg : String} {c : Char} {x : Switch}

theorem exists_of_ofLong? (h : ofLong? place n = some x) : ∃ y ∈ spellings place, y.long = n ∧ y.switch = x := by
  obtain ⟨y, hy, rfl⟩ := Option.map_eq_some_iff.mp h
  exact ⟨y, List.mem_of_find?_eq_some hy, by simpa using List.find?_some hy, rfl⟩

theorem exists_of_ofLetter? (h : ofLetter? place c = some x) :
    ∃ y ∈ spellings place, y.letter = some c ∧ y.switch = x := by
  obtain ⟨y, hy, rfl⟩ := Option.map_eq_some_iff.mp h
  exact ⟨y, List.mem_of_find?_eq_some hy, by simpa using List.find?_some hy, rfl⟩

theorem long_name (h : ofLong? place n = some x) : n.toList ≠ [] ∧ '=' ∉ n.toList := by
  have names : ∀ place, ∀ y ∈ spellings place, y.long.toList ≠ [] ∧ '=' ∉ y.long.toList := by
    intro place
    match place with
    | none | some .list | some .show | some .init => decide
  obtain ⟨y, hy, rfl, -⟩ := exists_of_ofLong? h
  exact names place y hy

theorem letter_ne_hyphen (h : ofLetter? place c = some x) : c ≠ '-' := by
  have letters : ∀ place, ∀ y ∈ spellings place, y.letter ≠ some '-' := by
    intro place
    match place with
    | none | some .list | some .show | some .init => decide
  obtain ⟨y, hy, hc, -⟩ := exists_of_ofLetter? h
  rintro rfl
  exact letters place y hy hc

/-- What is known before a command and does not ask for the version is known after it too. -/
theorem find?_after {p : Spelling → Bool} {y : Spelling} (verb : Verb) (h : (spellings none).find? p = some y)
    (hy : y.switch ≠ .flag .version) : (spellings (some verb)).find? p = some y := by
  have known : globalSpellings.find? p = some y := by
    rw [spellings, List.find?_append] at h
    obtain h | ⟨-, h⟩ := Option.or_eq_some_iff.mp h
    · exact h
    · obtain rfl := List.mem_singleton.mp (List.mem_of_find?_eq_some h)
      exact absurd rfl hy
  cases verb <;> simp only [spellings, List.find?_append, known, Option.some_or]

theorem ofLong?_after (verb : Verb) (h : ofLong? none n = some x) (hx : x ≠ .flag .version) :
    ofLong? (some verb) n = some x := by
  obtain ⟨y, hy, rfl⟩ := Option.map_eq_some_iff.mp h
  rw [ofLong?, find?_after verb hy hx, Option.map_some]

theorem ofLetter?_after (verb : Verb) (h : ofLetter? none c = some x) (hx : x ≠ .flag .version) :
    ofLetter? (some verb) c = some x := by
  obtain ⟨y, hy, rfl⟩ := Option.map_eq_some_iff.mp h
  rw [ofLetter?, find?_after verb hy hx, Option.map_some]

end

/-! ## Forms -/

open Given (formOf Form)

theorem span_append {n v : List Char} (hn : '=' ∉ n) (hv : v.head? = none ∨ v.head? = some '=') :
    (n ++ v).span (· ≠ '=') = (n, v) := by
  have keep : ∀ c ∈ n, decide (c ≠ '=') = true := fun c hc => by simpa using fun e : c = '=' => hn (e ▸ hc)
  rw [List.span_eq_takeWhile_dropWhile, List.takeWhile_append_of_pos keep, List.dropWhile_append_of_pos keep]
  cases v with
  | nil => simp
  | cons c v =>
    obtain rfl : c = '=' := by simpa using hv
    simp

theorem formOf_hyphens {c : Char} {cs : List Char} {arg : String} (h : arg.toList = '-' :: '-' :: c :: cs) :
    formOf arg =
      match (c :: cs).span (· ≠ '=') with
      | (name, []) => .long (String.ofList name) none
      | (name, _ :: value) => .long (String.ofList name) (some (String.ofList value)) := by
  rcases hspan : (c :: cs).span (· ≠ '=') with ⟨name, _ | ⟨d, value⟩⟩
  · simp only [formOf, h, hspan]
  · simp only [formOf, h, hspan]

theorem formOf_long {n : String} (hne : n.toList ≠ []) (hn : '=' ∉ n.toList) :
    formOf ("--" ++ n) = .long n none := by
  obtain ⟨c, cs, hc⟩ := List.exists_cons_of_ne_nil hne
  have text : ("--" ++ n).toList = '-' :: '-' :: c :: cs := by rw [String.toList_append, hc]; rfl
  have name := span_append hn (.inl List.head?_nil)
  rw [List.append_nil] at name
  rw [formOf_hyphens text, ← hc, name]
  exact congrArg (Form.long · none) String.ofList_toList

theorem formOf_equals {n : String} (v : String) (hne : n.toList ≠ []) (hn : '=' ∉ n.toList) :
    formOf ("--" ++ n ++ "=" ++ v) = .long n (some v) := by
  obtain ⟨c, cs, hc⟩ := List.exists_cons_of_ne_nil hne
  have text : ("--" ++ n ++ "=" ++ v).toList = '-' :: '-' :: c :: (cs ++ '=' :: v.toList) := by
    simp only [String.toList_append, hc, List.append_assoc]
    rfl
  have name := span_append hn (.inr (List.head?_cons (a := '=') (l := v.toList)))
  rw [formOf_hyphens text, ← List.cons_append, ← hc, name]
  simp only [String.ofList_toList]

theorem formOf_letters {c : Char} {cs : List Char} (hc : c ≠ '-') :
    formOf ("-" ++ String.ofList (c :: cs)) = .letters (c :: cs) := by
  have text : ("-" ++ String.ofList (c :: cs)).toList = '-' :: c :: cs := by
    simp only [String.toList_append, String.toList_ofList]
    rfl
  unfold formOf
  rw [text]
  split <;> simp_all

theorem formOf_plain {v : String} (h : Plain v) : formOf v = .plain := by
  unfold formOf
  obtain rfl | h := h
  · rfl
  · split <;> simp_all

theorem formOf_spec (arg : String) :
    match formOf arg with
    | .ending => arg = "--"
    | .long n none => arg = "--" ++ n
    | .long n (some v) => arg = "--" ++ n ++ "=" ++ v
    | .letters cs => cs ≠ [] ∧ arg = "-" ++ String.ofList cs
    | .plain => Plain arg := by
  generalize hf : formOf arg = f
  unfold formOf at hf
  split at hf
  next h =>
    subst hf
    exact String.toList_inj.mp h
  next cs _ h =>
    have parts := List.takeWhile_append_dropWhile (p := (· ≠ '=')) (l := cs)
    rw [List.span_eq_takeWhile_dropWhile] at hf
    split at hf
    next n hsplit =>
      subst hf
      rw [(Prod.mk.inj hsplit).1, (Prod.mk.inj hsplit).2, List.append_nil] at parts
      apply String.toList_inj.mp
      simp only [h, String.toList_append, String.toList_ofList, parts]
      rfl
    next n c v hsplit =>
      subst hf
      obtain ⟨hn, hv⟩ := Prod.mk.inj hsplit
      have hc : c = '=' := by
        have stop := List.head?_dropWhile_not (· ≠ '=') cs
        rw [hv] at stop
        simpa using stop
      rw [hn, hv, hc] at parts
      apply String.toList_inj.mp
      simp only [h, String.toList_append, String.toList_ofList, ← parts]
      simp
  next c cs _ _ h =>
    subst hf
    refine ⟨List.cons_ne_nil c cs, String.toList_inj.mp ?_⟩
    simp only [h, String.toList_append, String.toList_ofList]
    rfl
  next h₁ h₂ h₃ =>
    subst hf
    by_contra hp
    obtain ⟨hne, hhead⟩ := not_or.mp hp
    obtain ⟨cs, hcs⟩ := List.head?_eq_some_iff.mp (not_not.mp hhead)
    cases cs with
    | nil => exact hne (String.toList_inj.mp hcs)
    | cons c cs => exact h₃ c cs hcs

/-! ## Arguments on either side -/

def Part.Global (p : Part) : Prop := ∃ y ∈ spellings none, p.option? = some y.switch

section
variable {verb : Verb} {cs : List Char} {arg : String} {ps qs : List Part} {o : Option Setting} {l m : List String}

theorem Letters.after (h : Letters none cs ps o) (hv : .flag .version ∉ ps) : Letters (some verb) cs ps o := by
  induction h with
  | nil => exact .nil
  | @flag c cs f ps o known _ ih =>
    have hf : Switch.flag f ≠ .flag .version := by
      rintro ⟨⟩
      exact hv List.mem_cons_self
    exact .flag (ofLetter?_after verb known hf) (ih fun hp => hv (List.mem_cons_of_mem _ hp))
  | value known bare => exact .value (ofLetter?_after verb known nofun) bare
  | equals known => exact .equals (ofLetter?_after verb known nofun)
  | opened known => exact .opened (ofLetter?_after verb known nofun)

theorem Word.after (h : Word none arg ps o) (hv : .flag .version ∉ ps) : Word (some verb) arg ps o := by
  cases h with
  | @flag n f known =>
    have hf : Switch.flag f ≠ .flag .version := by
      rintro ⟨⟩
      exact hv List.mem_cons_self
    exact .flag (ofLong?_after verb known hf)
  | opened known => exact .opened (ofLong?_after verb known nofun)
  | equals known => exact .equals (ofLong?_after verb known nofun)
  | letters hcs ls => exact .letters hcs (ls.after hv)

/-- What is written before a command gives the same parts after it. -/
theorem Written.after (h : Written none o ps l) (hv : .flag .version ∉ ps) : Written (some verb) o ps l := by
  induction h with
  | nil => exact .nil
  | word w _ ih =>
    obtain ⟨hps, hqs⟩ := not_or.mp (List.mem_append.not.mp hv)
    exact .word (w.after hps) (ih hqs)
  | value plain _ ih => exact .value plain (ih fun hp => hv (List.mem_cons_of_mem _ hp))
  | name after => cases after

theorem Written.append {place : Option Verb} (h : Written place o ps l) (hm : Written place none qs m) :
    Written place o (ps ++ qs) (l ++ m) := by
  induction h with
  | nil => exact hm
  | word w _ ih =>
    rw [List.append_assoc]
    exact .word w ih
  | value plain _ ih => exact .value plain ih
  | name after takes plain _ ih => exact .name after takes plain ih

theorem Part.global_of_ofLong? {n : String} {x : Switch} {p : Part} (known : ofLong? none n = some x)
    (hp : p.option? = some x) : p.Global := by
  obtain ⟨y, hy, -, rfl⟩ := exists_of_ofLong? known
  exact ⟨y, hy, hp⟩

theorem Part.global_of_ofLetter? {c : Char} {x : Switch} {p : Part} (known : ofLetter? none c = some x)
    (hp : p.option? = some x) : p.Global := by
  obtain ⟨y, hy, -, rfl⟩ := exists_of_ofLetter? known
  exact ⟨y, hy, hp⟩

theorem Letters.global (h : Letters none cs ps o) :
    (∀ p ∈ ps, p.Global) ∧ ∀ s ∈ o, ∀ v, (Part.setting s v).Global := by
  induction h with
  | nil => exact ⟨nofun, nofun⟩
  | flag known _ ih => exact ⟨List.forall_mem_cons.mpr ⟨Part.global_of_ofLetter? known rfl, ih.1⟩, ih.2⟩
  | value known => exact ⟨List.forall_mem_singleton.mpr (Part.global_of_ofLetter? known rfl), nofun⟩
  | equals known => exact ⟨List.forall_mem_singleton.mpr (Part.global_of_ofLetter? known rfl), nofun⟩
  | opened known => exact ⟨nofun, fun s hs v => Part.global_of_ofLetter? known (Option.mem_some.mp hs ▸ rfl)⟩

theorem Word.global (h : Word none arg ps o) :
    (∀ p ∈ ps, p.Global) ∧ ∀ s ∈ o, ∀ v, (Part.setting s v).Global := by
  cases h with
  | flag known => exact ⟨List.forall_mem_singleton.mpr (Part.global_of_ofLong? known rfl), nofun⟩
  | opened known => exact ⟨nofun, fun s hs v => Part.global_of_ofLong? known (Option.mem_some.mp hs ▸ rfl)⟩
  | equals known => exact ⟨List.forall_mem_singleton.mpr (Part.global_of_ofLong? known rfl), nofun⟩
  | letters _ ls => exact ls.global

theorem Written.global (h : Written none o ps l) (ho : ∀ s ∈ o, ∀ v, (Part.setting s v).Global) :
    ∀ p ∈ ps, p.Global := by
  induction h with
  | nil => exact nofun
  | word w _ ih => exact List.forall_mem_append.mpr ⟨w.global.1, ih w.global.2⟩
  | value _ _ ih => exact List.forall_mem_cons.mpr ⟨ho _ rfl _, ih nofun⟩
  | name after => cases after

end

end PresetWorkspace.CommandLine
