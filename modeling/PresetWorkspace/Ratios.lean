import PresetWorkspace.Decimal.Binary64

/-!
# Goal ratios

A map from names to binary64 values, kept as a list in ascending order of the
names. Names are ordered by their code points.
-/

namespace PresetWorkspace

/-- A finite map from names to ratios, in ascending order of the names. -/
structure Ratios where
  entries : List (String × Binary64)
  ascending : entries.Pairwise (·.1 < ·.1)
  deriving DecidableEq

namespace Ratios

def empty : Ratios := ⟨[], .nil⟩

def insertEntry (name : String) (x : Binary64) : List (String × Binary64) → List (String × Binary64)
  | [] => [(name, x)]
  | e :: es =>
    if name < e.1 then (name, x) :: e :: es
    else if name = e.1 then (name, x) :: es
    else e :: insertEntry name x es

theorem mem_insertEntry {name : String} {x : Binary64} {es : List (String × Binary64)} {e : String × Binary64}
    (h : e ∈ insertEntry name x es) : e.1 = name ∨ e ∈ es := by
  induction es with
  | nil => simp_all [insertEntry]
  | cons e' es ih =>
    unfold insertEntry at h
    split at h
    · simp only [List.mem_cons] at h ⊢
      rcases h with rfl | h <;> simp_all
    · split at h
      · simp only [List.mem_cons] at h ⊢
        rcases h with rfl | h <;> simp_all
      · simp only [List.mem_cons] at h ⊢
        rcases h with h | h
        · exact .inr (.inl h)
        · exact (ih h).imp_right .inr

theorem insertEntry_ascending (name : String) (x : Binary64) {es : List (String × Binary64)}
    (h : es.Pairwise (·.1 < ·.1)) : (insertEntry name x es).Pairwise (·.1 < ·.1) := by
  induction es with
  | nil => simp [insertEntry]
  | cons e es ih =>
    have ⟨he, hes⟩ := List.pairwise_cons.1 h
    unfold insertEntry
    split
    · rename_i hlt
      refine List.pairwise_cons.2 ⟨fun e' he' => ?_, h⟩
      rcases List.mem_cons.1 he' with rfl | he'
      · exact hlt
      · exact String.lt_trans hlt (he _ he')
    · split
      · rename_i heq
        exact List.pairwise_cons.2 ⟨fun e' he' => heq ▸ he _ he', hes⟩
      · rename_i hlt hne
        refine List.pairwise_cons.2 ⟨fun e' he' => ?_, ih hes⟩
        rcases mem_insertEntry he' with h' | h'
        · rw [h']
          exact Decidable.byContradiction fun hge =>
            hne (String.le_antisymm (String.not_lt.1 hge) (String.not_lt.1 hlt))
        · exact he _ h'

/-- The map with one entry more; the last entry of a name counts. -/
def insert (r : Ratios) (name : String) (x : Binary64) : Ratios :=
  ⟨insertEntry name x r.entries, insertEntry_ascending name x r.ascending⟩

def ofList (es : List (String × Binary64)) : Ratios :=
  es.foldl (fun r e => r.insert e.1 e.2) empty

end Ratios

end PresetWorkspace
