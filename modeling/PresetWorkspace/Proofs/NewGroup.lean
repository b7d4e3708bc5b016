import PresetWorkspace.Proofs.Reads

/-!
# New groups

The ratios of a group are kept as a text. There is one for them if they are
finite, and then the group reads with what the numbers of that text stand for;
else no reader gets past its row, and the list of its user's groups stops there
(`created_group_reads`).
-/

namespace PresetWorkspace

open Workspace

/-! ## Ratios in a text -/

def Ratios.again (m : Ratios) : Ratios where
  entries := m.entries.map fun e => (e.1, e.2.again)
  ascending := List.pairwise_map.mpr m.ascending

/-- A group as its row reads. -/
def Group.again (g : Group) : Group := { g with goalRatios := g.goalRatios.map Ratios.again }

def Group.HasFiniteRatios (g : Group) : Prop := ∀ m ∈ g.goalRatios, ∀ e ∈ m.entries, e.2.isFinite = true

theorem Ratios.again_eq_self {m : Ratios} : m.again = m ↔ ∀ e ∈ m.entries, e.2.again = e.2 := by
  have hentries : m.again = m ↔ m.again.entries = m.entries := by
    obtain ⟨es, hes⟩ := m
    exact Ratios.mk.injEq _ _ _ _ ▸ Iff.rfl
  rw [hentries]
  show m.entries.map (fun e => (e.1, e.2.again)) = m.entries ↔ _
  conv_lhs => rhs; rw [← List.map_id m.entries]
  rw [List.map_inj_left]
  exact forall₂_congr fun e _ => by rw [Prod.ext_iff]; exact and_iff_right rfl

theorem Group.again_eq_self {g : Group} :
    g.again = g ↔ ∀ m ∈ g.goalRatios, ∀ e ∈ m.entries, e.2.again = e.2 := by
  obtain ⟨id, user, name, color, description, _ | m, isTodoGroup, createdAt⟩ := g
  · simp [again]
  · simp [again, Ratios.again_eq_self]

theorem Group.read_finite {g : Group} (h : g.HasFiniteRatios) : g.row.read = .ok g.again := by
  have hread : readRatios 5 (g.goalRatios.map fun m => (Json.ofRatios m).compact) =
      .ok (g.goalRatios.map Ratios.again) := by
    cases hm : g.goalRatios with
    | none => rfl
    | some m =>
      rw [Option.map_some, readRatios_finite (h m hm)]
      exact congrArg (fun m => Except.ok (some m)) m.again.ofList_entries
  rw [Group.read_row, hread]
  rfl

theorem Group.read_infinite {g : Group} (h : ¬ g.HasFiniteRatios) : ∃ e, g.row.read = .error e := by
  unfold HasFiniteRatios at h
  push Not at h
  obtain ⟨m, hm, e, he, hinfinite⟩ := h
  obtain ⟨error, herror⟩ := readRatios_infinite ⟨e, he, Bool.eq_false_iff.mpr hinfinite⟩ 5
  have hread : readRatios 5 (g.goalRatios.map fun m => (Json.ofRatios m).compact) = .error error := by
    rw [show g.goalRatios = some m from hm, Option.map_some, herror]
  rw [Group.read_row, hread]
  exact ⟨error, rfl⟩

/-! ## A row more -/

namespace Workspace

section
variable {w : Workspace} {g : Group} (h : (w.add [g] [] []).Consistent)
include h

theorem group?_snoc : (w.add [g] [] []).group? g.id = some <$> g.row.read := by
  rw [group?_new h, Group.read_row]
  cases readRatios 5 (g.goalRatios.map fun m => (Json.ofRatios m).compact) <;> rfl

/-- The new row is the last one that is read. -/
theorem groupsOf_snoc :
    (w.add [g] [] []).groupsOf g.user =
      (w.groupsOf g.user).bind fun gs => g.row.read.map fun g' => gs ++ [g'] := by
  have hrows : (w.add [g] [] []).groups.filter (·.user = g.user) = w.groups.filter (·.user = g.user) ++ [g.row] := by
    show (w.groups ++ [g.row]).filter _ = _
    rw [List.filter_append, List.filter_cons_of_pos (by exact decide_eq_true rfl), List.filter_nil]
  have htable : w.requireTable .groups = .ok () := requireTable_eq_ok.mpr (h.hasTable .groups)
  unfold groupsOf
  rw [requireTable_eq_ok.mpr (h.hasTable .groups), htable, hrows]
  show List.mapM GroupRow.read (_ ++ [g.row]) = _
  rw [List.mapM_append, List.mapM_cons, List.mapM_nil]
  cases List.mapM GroupRow.read (w.groups.filter (·.user = g.user)) with
  | error e => rfl
  | ok gs => cases g.row.read <;> rfl

end

/-- A group that has been created, whatever happened before, reads by its id as what its row reads as, and behind
the groups that its user has had so far, if there are numbers for all its ratios. Else neither can be read. What is
read is what was asked for iff every ratio is what its number stands for. -/
theorem created_group_reads {φ α : Type} (events : List (Event φ α)) {user : String} {draw : Draw} {r : GroupRequest}
    {id : Uuid} (h : (create user draw (.group r) (after events)).1 = .ok id) :
    let w := after events
    let w' := (create user draw (.group r) w).2
    let g := r.record user draw
    (g.HasFiniteRatios →
      w'.group? id = .ok (some g.again) ∧
        ∀ gs, w.groupsOf user = .ok gs → w'.groupsOf user = .ok (gs ++ [g.again])) ∧
    (¬ g.HasFiniteRatios → (∃ e, w'.group? id = .error e) ∧ ∃ e, w'.groupsOf user = .error e) ∧
    (g.again = g ↔ ∀ m ∈ r.goalRatios, ∀ e ∈ m.entries, e.2.again = e.2) := by
  intro w w' g
  have hw : w.Consistent := consistent_of_history events
  obtain ⟨rfl, hadd⟩ := create_ok hw h
  have hadd : w' = w.add [g] [] [] := hadd
  have hw' : (w.add [g] [] []).Consistent := hadd ▸ hw.create user draw (.group r)
  have hgroup : w'.group? draw.id = some <$> g.row.read := by
    rw [hadd]
    exact group?_snoc hw'
  have hlist : w'.groupsOf user = (w.groupsOf user).bind fun gs => g.row.read.map fun g' => gs ++ [g'] := by
    rw [hadd]
    exact groupsOf_snoc hw'
  rw [hgroup, hlist]
  refine ⟨fun hfinite => ?_, fun hinfinite => ?_, Group.again_eq_self⟩
  · rw [Group.read_finite hfinite]
    refine ⟨rfl, fun gs hgs => ?_⟩
    rw [hgs]
    rfl
  · obtain ⟨e, he⟩ := Group.read_infinite hinfinite
    rw [he]
    refine ⟨⟨e, rfl⟩, ?_⟩
    cases w.groupsOf user with
    | error e' => exact ⟨e', rfl⟩
    | ok gs => exact ⟨e, rfl⟩

/-- A second group. One of its ratios is what its number stands for, the other one is not. -/
theorem created_group_reads_second :
    let first : GroupRequest := ⟨"home", "red", none, none, true⟩
    let events : List (Event Unit Unit) := [.step ⟨"alice", .create (.group first), fun _ => ⟨⟨1⟩, 1⟩⟩]
    let half : Binary64 := .ofRatio 1 2
    let third : Binary64 := .ofRatio 36650488425164973 (Nat.pow 10 17)
    let r : GroupRequest :=
      ⟨"work", "blue", some "", some ⟨[("a", half), ("b", third)], by decide⟩, false⟩
    let g := r.record "alice" ⟨⟨2⟩, 2⟩
    let w' := (create "alice" ⟨⟨2⟩, 2⟩ (.group r) (after events)).2
    half.again = half ∧ third.again ≠ third ∧ w'.group? ⟨2⟩ = .ok (some g.again) ∧
      w'.groupsOf "alice" = .ok [first.record "alice" ⟨⟨1⟩, 1⟩, g.again] := by
  intro first events half third r g w'
  have hok : (create "alice" ⟨⟨2⟩, 2⟩ (.group r) (after events)).1 = .ok ⟨2⟩ := by rfl
  have hfinite : g.HasFiniteRatios := by
    rintro m hm e he
    cases hm
    revert e
    decide +kernel
  obtain ⟨hread, -⟩ := created_group_reads events hok
  refine ⟨by decide +kernel, by decide +kernel, (hread hfinite).1, ?_⟩
  exact (hread hfinite).2 [first.record "alice" ⟨⟨1⟩, 1⟩] rfl

/-- A group with an infinite ratio is accepted. Then neither it nor the list of its user's groups can be read, which
could be read before. -/
theorem created_group_unreadable :
    let r : GroupRequest := ⟨"home", "red", none, some ⟨[("a", .infinity)], by decide⟩, true⟩
    let w := after ([] : List (Event Unit Unit))
    let out := create "alice" ⟨⟨1⟩, 1⟩ (.group r) w
    out.1.toOption = some ⟨1⟩ ∧ (w.groupsOf "alice").toOption = some [] ∧ (out.2.group? ⟨1⟩).toOption = none ∧
      (out.2.groupsOf "alice").toOption = none := by
  decide +kernel

end Workspace

end PresetWorkspace
