import PresetWorkspace.Proofs.Script

/-!
# Forests by depth

A forest in document order, each tree before all that is below it, is given by
the depths of its nodes alone: `RoseTree.grow` reads such a list from the right
and hangs what has come so far below the node in front of it.
-/

namespace PresetWorkspace

inductive RoseTree (α : Type) where
  | node (label : α) (below : List (RoseTree α))

variable {α : Type}

def RoseTree.grow : List (α × Nat) → (depth : Nat) → List (RoseTree α)
  | [], _ => []
  | (label, d) :: rest, k =>
    if k < d then grow rest k
    else if k = d then .node label (grow rest (d + 1)) :: grow rest d
    else []

namespace TodoTemplate

mutual

def tree (label : TodoTemplate → α) : TodoTemplate → RoseTree α
  | ⟨title, description, tagNames, none⟩ => .node (label ⟨title, description, tagNames, none⟩) []
  | ⟨title, description, tagNames, some ts⟩ =>
    .node (label ⟨title, description, tagNames, some ts⟩) (trees label ts)

def trees (label : TodoTemplate → α) : List TodoTemplate → List (RoseTree α)
  | [] => []
  | t :: ts => t.tree label :: trees label ts

end

mutual

/-- The labels of a todo and of all below it in document order, with their depths. -/
def level (label : TodoTemplate → α) (depth : Nat) : TodoTemplate → List (α × Nat)
  | ⟨title, description, tagNames, none⟩ => [(label ⟨title, description, tagNames, none⟩, depth)]
  | ⟨title, description, tagNames, some ts⟩ =>
    (label ⟨title, description, tagNames, some ts⟩, depth) :: levels label (depth + 1) ts

def levels (label : TodoTemplate → α) (depth : Nat) : List TodoTemplate → List (α × Nat)
  | [] => []
  | t :: ts => t.level label depth ++ levels label depth ts

end

variable (label : TodoTemplate → α)

theorem trees_cons (t : TodoTemplate) (ts : List TodoTemplate) :
    trees label (t :: ts) = .node (label t) (trees label t.subtodos) :: trees label ts := by
  obtain ⟨title, description, tagNames, _ | below⟩ := t <;> simp [trees, tree, subtodos]

theorem levels_cons (depth : Nat) (t : TodoTemplate) (ts : List TodoTemplate) :
    levels label depth (t :: ts) =
      (label t, depth) :: (levels label (depth + 1) t.subtodos ++ levels label depth ts) := by
  obtain ⟨title, description, tagNames, _ | below⟩ := t <;> simp [levels, level, subtodos]

/-- A forest grows from its levels in front of what starts no deeper. -/
theorem grow_levels_append (ts : List TodoTemplate) (depth : Nat) (more : List (α × Nat))
    (hmore : ∀ k, depth < k → RoseTree.grow more k = []) (k : Nat) :
    RoseTree.grow (levels label depth ts ++ more) k =
      if k < depth then RoseTree.grow more k
      else if k = depth then trees label ts ++ RoseTree.grow more depth
      else [] := by
  induction ts using forest_induction generalizing depth more k with
  | nil =>
    simp only [levels, trees, List.nil_append]
    split
    · rfl
    · split
      · subst_vars
        rfl
      · exact hmore k (by omega)
  | cons t ts below rest =>
    have hrest := rest depth more hmore
    have hbelow := below (depth + 1) (levels label depth ts ++ more) fun k hk => by
      rw [hrest, if_neg (by omega), if_neg (by omega)]
    rw [levels_cons, List.cons_append, List.append_assoc, RoseTree.grow, trees_cons]
    by_cases hlt : k < depth
    · rw [if_pos hlt, if_pos hlt, hbelow, if_pos (by omega), hrest, if_pos hlt]
    rw [if_neg hlt, if_neg hlt]
    by_cases heq : k = depth
    · -- Below the root stands what its own levels grow into; the rest of its depth are its siblings.
      rw [if_pos heq, if_pos heq, hbelow, if_neg (by omega), if_pos rfl, hrest, if_neg (by omega), if_neg (by omega),
        List.append_nil, hbelow, if_pos (by omega), hrest, if_neg (by omega), if_pos rfl]
      rfl
    · rw [if_neg heq, if_neg heq]

theorem grow_levels (ts : List TodoTemplate) : RoseTree.grow (levels label 0 ts) 0 = trees label ts := by
  have h := grow_levels_append label ts 0 [] (fun _ _ => rfl) 0
  simpa [RoseTree.grow] using h

end TodoTemplate

end PresetWorkspace
