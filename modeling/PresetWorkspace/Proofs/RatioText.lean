import PresetWorkspace.Document.Writer
import PresetWorkspace.Proofs.Decoding
import PresetWorkspace.Proofs.Numeral
import PresetWorkspace.Workspace.Read

/-!
# Ratios as text

The ratios of a group are kept as the text of a document. That text reads back
entry by entry: a name always as itself, a number as whatever its digits
alone read as (`Binary64.reread`). So the ratios read back as themselves when
each number does (`readRatios_same`). A value that is not finite has no digits,
and a text with one does not read (`readRatios_infinite`).
-/

namespace PresetWorkspace

open Document

/-! ## Values -/

namespace Binary64

def reread (x : Binary64) : Except Problem Binary64 :=
  Document.read .ratio (String.ofList (Json.Number.print (.ratio x)))

theorem reread_of_spells {x y : Binary64} (h : x.isFinite = true) (hy : SpellsNumber x.numeral (some (.ratio y))) :
    x.reread = .ok y := by
  unfold reread
  rw [Json.Number.print, if_pos h]
  exact (Spells.number hy).read_ok rfl

/-- A value that is not finite is printed as a word, and no reader of numbers takes that. -/
theorem isFinite_of_reread {x y : Binary64} (h : x.reread = .ok y) : x.isFinite = true := by
  by_contra hinfinite
  unfold reread at h
  rw [Json.Number.print, if_neg hinfinite] at h
  have hnull : decodeWithin depthLimit .ratio .null = .error .data := rfl
  obtain ⟨problem, hproblem⟩ := Spells.null.read_error hnull
  cases h.symm.trans hproblem

/-- What a value reads as after it has been printed; the value itself if that is no number. -/
def again (x : Binary64) : Binary64 := x.reread.toOption.getD x

theorem again_of_reread {x y : Binary64} (h : x.reread = .ok y) : x.again = y := by
  unfold again
  rw [h]
  rfl

theorem spells_again {x : Binary64} (h : x.isFinite = true) : SpellsNumber x.numeral (some (.ratio x.again)) := by
  obtain ⟨y, hy⟩ := exists_spells_numeral h
  rwa [again_of_reread (reread_of_spells h hy)]

def printed (x : Binary64) : Tree := if x.isFinite then .number (some (.ratio x.again)) else .null

theorem spells_printed (x : Binary64) : Spells (Json.Number.print (.ratio x)) x.printed := by
  rw [Json.Number.print, printed]
  by_cases hfinite : x.isFinite = true
  · rw [if_pos hfinite, if_pos hfinite]
    exact .number (spells_again hfinite)
  · rw [if_neg hfinite, if_neg hfinite]
    exact .null

end Binary64

theorem Json.Rereads.ratio {x : Binary64} (h : x.reread = .ok x) : Rereads (.number (.ratio x)) := by
  have hfinite := Binary64.isFinite_of_reread h
  obtain ⟨y, hy⟩ := Binary64.numeral_reads hfinite
  have hspells := SpellsNumber.of_read (JsonText.isNumber_numeral hfinite) hy
  cases h.symm.trans (Binary64.reread_of_spells hfinite hspells)
  refine .number ?_
  rw [Number.print, if_pos hfinite]
  exact hy

/-! ## Maps -/

theorem insertEntry_last {name : String} {x : Binary64} {es : List (String × Binary64)} (h : ∀ e ∈ es, e.1 < name) :
    Ratios.insertEntry name x es = es ++ [(name, x)] := by
  induction es with
  | nil => rfl
  | cons e es ih =>
    obtain ⟨he, hes⟩ := List.forall_mem_cons.mp h
    rw [Ratios.insertEntry, if_neg (String.lt_asymm he), if_neg, ih hes]
    · rfl
    · rintro rfl
      exact String.lt_irrefl _ he

theorem foldl_insert_entries {es : List (String × Binary64)} {r : Ratios}
    (h : (r.entries ++ es).Pairwise (·.1 < ·.1)) :
    (es.foldl (fun r e => r.insert e.1 e.2) r).entries = r.entries ++ es := by
  induction es generalizing r with
  | nil => rw [List.append_nil]; rfl
  | cons e es ih =>
    have hlast : (r.insert e.1 e.2).entries = r.entries ++ [e] :=
      insertEntry_last fun e' he' => (List.pairwise_append.mp h).2.2 e' he' e List.mem_cons_self
    rw [List.foldl_cons, ih, hlast, List.append_assoc]
    · rfl
    · rw [hlast, List.append_assoc]
      exact h

theorem Ratios.ofList_entries (m : Ratios) : Ratios.ofList m.entries = m := by
  have hentries : (Ratios.ofList m.entries).entries = m.entries := foldl_insert_entries (r := .empty) m.ascending
  generalize Ratios.ofList m.entries = m' at hentries
  cases m
  cases m'
  cases hentries
  rfl

/-! ## Entries -/

def Ratios.printed (m : Ratios) : Tree := .object (m.entries.map fun e => (some e.1, e.2.printed))

theorem Ratios.spells_printed (m : Ratios) : Spells (Json.ofRatios m).compactChars m.printed := by
  rw [Json.ofRatios, Json.compactChars, Json.compactMembers_eq]
  refine .object (Json.spells_joinMembers skipBlanks_nil skipBlanks_nil skipBlanks_nil ?_ true fun _ => rfl)
  rw [List.forall₂_map_left_iff, List.forall₂_map_right_iff, List.forall₂_same]
  intro e he
  rw [Json.compactChars]
  exact ⟨rfl, e.2.spells_printed⟩

section
variable (depth : Nat)

@[simp] theorem Document.decodeWithin_ratio (x : Binary64) :
    decodeWithin depth .ratio (.number (some (.ratio x))) = .ok x := by
  cases depth <;> rfl

theorem decodeWithin_map (es : List (String × Binary64)) (value : Binary64 → Tree) :
    decodeWithin (depth + 1) .ratios (.object (es.map fun e => (some e.1, value e.2))) =
      es.foldlM (fun m e => m.insert e.1 <$> decodeWithin depth .ratio (value e.2)) Ratios.empty :=
  List.foldlM_map

theorem decodeWithin_entries (es : List (String × Binary64)) :
    decodeWithin (depth + 1) .ratios (.object (es.map fun e => (some e.1, .number (some (.ratio e.2))))) =
      .ok (Ratios.ofList es) := by
  rw [decodeWithin_map depth es fun x => .number (some (.ratio x))]
  simp only [decodeWithin_ratio]
  exact List.foldlM_pure

/-- A word among the numbers stops the reading, whatever has been read before it. -/
theorem decodeWithin_infinite {es : List (String × Binary64)} (h : ∃ e ∈ es, e.2.isFinite = false) :
    ∃ c, decodeWithin (depth + 1) .ratios (.object (es.map fun e => (some e.1, e.2.printed))) = .error c := by
  rw [decodeWithin_map]
  generalize Ratios.empty = acc
  induction es generalizing acc with
  | nil =>
    obtain ⟨e, he, -⟩ := h
    cases he
  | cons e es ih =>
    rw [List.foldlM_cons]
    cases hfinite : e.2.isFinite with
    | false =>
      rw [Binary64.printed, hfinite]
      cases depth <;> exact ⟨_, rfl⟩
    | true =>
      have hes : ∃ e ∈ es, e.2.isFinite = false := by
        obtain ⟨e', he', hinfinite⟩ := h
        rcases List.mem_cons.mp he' with rfl | he'
        · cases hfinite.symm.trans hinfinite
        · exact ⟨e', he', hinfinite⟩
      rw [Binary64.printed, if_pos hfinite, decodeWithin_ratio]
      exact ih hes _

end

/-- The text of a map of finite values gives its names with what their numbers read as. -/
theorem readRatios_finite {m : Ratios} (h : ∀ e ∈ m.entries, e.2.isFinite = true) (index : Nat) :
    Workspace.readRatios index (some (Json.ofRatios m).compact) =
      .ok (some (Ratios.ofList (m.entries.map fun e => (e.1, e.2.again)))) := by
  have hprinted : m.printed =
      .object ((m.entries.map fun e => (e.1, e.2.again)).map fun e => (some e.1, .number (some (.ratio e.2)))) := by
    unfold Ratios.printed
    rw [List.map_map]
    refine congrArg Tree.object (List.map_congr_left fun e he => ?_)
    rw [Binary64.printed, if_pos (h e he)]
    rfl
  have hdecode := decodeWithin_entries 126 (m.entries.map fun e => (e.1, e.2.again))
  rw [← hprinted] at hdecode
  have hread := m.spells_printed.read_ok hdecode
  unfold Workspace.readRatios Json.compact
  simp only
  rw [hread]

theorem readRatios_same {m : Ratios} (hes : ∀ e ∈ m.entries, e.2.reread = .ok e.2) (index : Nat) :
    Workspace.readRatios index (some (Json.ofRatios m).compact) = .ok (some m) := by
  have hsame : m.entries.map (fun e => (e.1, e.2.again)) = m.entries := by
    conv_rhs => rw [← List.map_id m.entries]
    exact List.map_congr_left fun e he => by rw [Binary64.again_of_reread (hes e he)]; rfl
  rw [readRatios_finite fun e he => Binary64.isFinite_of_reread (hes e he), hsame, Ratios.ofList_entries]

theorem readRatios_infinite {m : Ratios} (h : ∃ e ∈ m.entries, e.2.isFinite = false) (index : Nat) :
    ∃ e, Workspace.readRatios index (some (Json.ofRatios m).compact) = .error e := by
  obtain ⟨c, hdecode⟩ := decodeWithin_infinite 126 h
  obtain ⟨problem, hproblem⟩ := m.spells_printed.read_error hdecode
  unfold Workspace.readRatios Json.compact
  simp only
  rw [hproblem]
  exact ⟨_, rfl⟩

end PresetWorkspace
