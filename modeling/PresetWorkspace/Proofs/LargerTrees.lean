import PresetWorkspace.Proofs.FolderEntries

/-!
# Larger trees

A path that leads to something goes only through entries that are there, so it
leads the same way in every tree that has these entries and others. What led
nowhere may lead somewhere in a larger tree. The trees are compared up to a
relation of entries that keeps folders and links (`Steady`), as the content of
a file is nothing to a walk.
-/

namespace PresetWorkspace.FileTree

variable {δ : Type}

theorem find_eq_ok {tree : FileTree δ} {path : String} {e : Entry δ} :
    tree.find path = .ok e ↔ ∃ loc, tree.locate path = .ok loc ∧ tree.entry? loc = some e := by
  unfold find
  cases hloc : tree.locate path with
  | error f => simp [bind, Except.bind]
  | ok loc => cases he : tree.entry? loc <;> simp [bind, Except.bind, pure, Except.pure, throw, throwThe,
      MonadExceptOf.throw, he]

/-- Related entries are alike for a walk. -/
structure Steady (rel : Entry δ → Entry δ → Prop) : Prop where
  folder {e : Entry δ} : rel .folder e → e = .folder
  link {target : String} {e : Entry δ} : rel (.link target) e → e = .link target
  unlink {target : String} {e : Entry δ} : rel e (.link target) → e = .link target

theorem steady_eq : Steady (δ := δ) Eq := ⟨Eq.symm, Eq.symm, id⟩

/-- What one tree has, another has too, up to a relation. -/
def Within (rel : Entry δ → Entry δ → Prop) (tree tree' : FileTree δ) : Prop :=
  ∀ loc e, tree.entry? loc = some e → ∃ e', tree'.entry? loc = some e' ∧ rel e e'

section
variable {rel : Entry δ → Entry δ → Prop} {tree tree' : FileTree δ} (hrel : Steady rel) (h : tree.Within rel tree')
include hrel h

theorem walkWith_within {follow follow' : Location → List String → Except FileError Location}
    (hfollow : ∀ {base ps there e},
      follow base ps = .ok there → tree.entry? there = some e → follow' base ps = .ok there)
    {ps : List String} {loc there : Location} {e : Entry δ} (hwalk : tree.walkWith follow loc ps = .ok there)
    (he : tree.entry? there = some e) : tree'.walkWith follow' loc ps = .ok there := by
  induction ps generalizing loc with
  | nil => exact hwalk
  | cons n ps ih =>
    rw [walkWith] at hwalk ⊢
    cases hloc : tree.entry? loc with
    | none => simp [hloc] at hwalk
    | some at' =>
      rw [hloc] at hwalk
      cases at' with
      | folder =>
        obtain ⟨e', he', hfolder⟩ := h _ _ hloc
        obtain rfl := hrel.folder hfolder
        rw [he']
        dsimp only at hwalk ⊢
        by_cases hblank : n = "" ∨ n = "."
        · rw [if_pos hblank] at hwalk ⊢
          exact ih hwalk
        rw [if_neg hblank] at hwalk ⊢
        by_cases hup : n = ".."
        · rw [if_pos hup] at hwalk ⊢
          exact ih hwalk
        rw [if_neg hup] at hwalk ⊢
        by_cases hlong : longestName < n.utf8ByteSize
        · rw [if_pos hlong] at hwalk
          cases hwalk
        rw [if_neg hlong] at hwalk ⊢
        cases hn : tree.entry? (loc ++ [n]) with
        | none =>
          -- Nothing is there, so no more pieces come and nothing is found.
          rw [hn] at hwalk
          cases ps with
          | nil =>
            cases hwalk
            rw [hn] at he
            cases he
          | cons m ps => simp [walkWith, hn] at hwalk
        | some found =>
          obtain ⟨found', hn', hfound⟩ := h _ _ hn
          rw [hn] at hwalk
          rw [hn']
          by_cases hlink : ∃ target, found = .link target
          · obtain ⟨target, rfl⟩ := hlink
            obtain rfl := hrel.link hfound
            exact hfollow hwalk he
          · have hstay : tree.walkWith follow (loc ++ [n]) ps = .ok there := by
              split at hwalk
              · rename_i target htarget
                exact absurd ⟨target, Option.some.inj htarget⟩ hlink
              · exact hwalk
            split
            · rename_i target htarget
              cases htarget
              exact absurd ⟨target, hrel.unlink hfound⟩ hlink
            · exact ih hstay
      | text _ | undecodable | stored _ | link _ => cases hwalk

theorem walk_within {links : Nat} {ps : List String} {loc there : Location} {e : Entry δ}
    (hwalk : tree.walk links loc ps = .ok there) (he : tree.entry? there = some e) :
    tree'.walk links loc ps = .ok there := by
  induction links generalizing loc ps there e with
  | zero => exact walkWith_within hrel h (by rintro _ _ _ _ ⟨⟩) hwalk he
  | succ links ih => exact walkWith_within hrel h (fun hw he => ih hw he) hwalk he

theorem locate_within {path : String} {loc : Location} {e : Entry δ} (hloc : tree.locate path = .ok loc)
    (he : tree.entry? loc = some e) : tree'.locate path = .ok loc := by
  unfold locate at hloc ⊢
  split at hloc
  · cases hloc
  split at hloc
  · cases hloc
  split at hloc
  · cases hloc
  rw [if_neg ‹_›, if_neg ‹_›, if_neg ‹_›]
  exact walk_within hrel h hloc he

theorem find_within {path : String} {e : Entry δ} (hfind : tree.find path = .ok e) :
    ∃ e', tree'.find path = .ok e' ∧ rel e e' := by
  obtain ⟨loc, hloc, he⟩ := find_eq_ok.mp hfind
  obtain ⟨e', he', hee'⟩ := h _ _ he
  exact ⟨e', find_eq_ok.mpr ⟨loc, locate_within hrel h hloc he, he'⟩, hee'⟩

end

/-! ## Entries added -/

section
variable {tree tree' : FileTree δ} {loc : Location} {e : Entry δ}

theorem lookup_replaced (entries : List (Location × Entry δ)) (l : Location) :
    (entries.map fun (there, old) => (there, if there = loc then e else old)).lookup l =
      (entries.lookup l).map fun old => if l = loc then e else old := by
  induction entries with
  | nil => rfl
  | cons x entries ih =>
    obtain ⟨k, v⟩ := x
    rw [List.map_cons, List.lookup_cons, List.lookup_cons, ih]
    by_cases h : l = k
    · simp [h]
    · simp [beq_false_of_ne h]

theorem lookup_put (l : Location) :
    (tree.put loc e).entries.lookup l = if l = loc then some e else tree.entries.lookup l := by
  unfold put
  by_cases hthere : (tree.entries.lookup loc).isSome = true
  · rw [if_pos hthere, lookup_replaced]
    obtain ⟨old, hold⟩ := Option.isSome_iff_exists.mp hthere
    by_cases h : l = loc
    · simp [h, hold]
    · simp [h]
  · rw [if_neg hthere]
    rw [Bool.not_eq_true, Option.isSome_eq_false_iff, Option.isNone_iff_eq_none] at hthere
    rw [List.lookup_append]
    by_cases h : l = loc
    · simp [h, hthere]
    · simp [h, List.lookup_cons, beq_false_of_ne h]

theorem entry_put (l : Location) :
    entry? (tree.put loc e) l = if isOutside l then some .folder else if l = loc then some e else tree.entry? l := by
  unfold entry?
  rw [lookup_put]
  by_cases h : isOutside l = true <;> simp [h]

theorem put_within {rel : Entry δ → Entry δ → Prop} (hrefl : ∀ e, rel e e)
    (h : ∀ e', tree.entry? loc = some e' → rel e' e) : tree.Within rel (tree.put loc e) := by
  intro l e' he'
  rw [entry_put]
  by_cases hout : isOutside l = true
  · rw [if_pos hout]
    unfold entry? at he'
    rw [if_pos hout] at he'
    exact ⟨.folder, rfl, Option.some.inj he' ▸ hrefl _⟩
  rw [if_neg hout]
  by_cases hl : l = loc
  · subst hl
    rw [if_pos rfl]
    exact ⟨e, rfl, h e' he'⟩
  · rw [if_neg hl]
    exact ⟨e', he', hrefl e'⟩

theorem Within.refl (tree : FileTree δ) : tree.Within Eq tree := fun _ _ h => ⟨_, h, rfl⟩

theorem Within.trans {tree'' : FileTree δ} {rel : Entry δ → Entry δ → Prop} (h : tree.Within Eq tree')
    (h' : tree'.Within rel tree'') : tree.Within rel tree'' := by
  intro l e he
  obtain ⟨e', he', rfl⟩ := h _ _ he
  exact h' _ _ he'

theorem makeFolder_within {path : String} (h : tree.makeFolder path = .ok tree') : tree.Within Eq tree' := by
  unfold makeFolder at h
  dsimp only at h
  split at h
  · cases h
  split at h
  · cases h
  rename_i n _ _
  cases hwalk : tree.walk mostLinks (start [] path).1
      ((start [] path).2.reverse.dropWhile fun n => decide (n = "") || decide (n = ".")).reverse.dropLast with
  | error e =>
    rw [hwalk] at h
    cases h
  | ok loc =>
    rw [hwalk] at h
    dsimp only [bind, Except.bind] at h
    split at h
    · cases h
    · split at h
      · cases h
      split at h
      · cases h
      split at h
      · cases h
      rename_i hnew
      cases h
      apply put_within (fun _ => rfl)
      intro e' he'
      rw [he'] at hnew
      exact absurd rfl hnew
    · cases h

theorem again_within {path : String} {r : Except FileError (FileTree δ)}
    (h : makeFolders.again tree path r = .ok tree') : r = .ok tree' ∨ tree = tree' := by
  unfold makeFolders.again at h
  split at h
  · exact .inl h
  · split at h
    · exact .inr (Except.ok.inj h)
    · cases h

theorem makeFolders_within {fuel : Nat} {path : String} (h : tree.makeFolders fuel path = .ok tree') :
    tree.Within Eq tree' := by
  induction fuel generalizing tree tree' path with
  | zero => cases h
  | succ fuel ih =>
    unfold makeFolders at h
    split at h
    · cases h
      exact Within.refl tree
    split at h
    · rename_i made hmade
      cases h
      exact makeFolder_within hmade
    · cases hfolders : tree.makeFolders fuel ((FilePath.parent? path).getD "") with
      | error e =>
        rw [hfolders] at h
        cases h
      | ok folders =>
        rw [hfolders] at h
        have hwithin := ih hfolders
        rcases again_within h with hmade | rfl
        · exact hwithin.trans (makeFolder_within hmade)
        · exact hwithin
    · rcases again_within h with hmade | rfl
      · cases hmade
      · exact Within.refl tree

end

/-! ## Folders above -/

theorem join_eq {folder n : String} (hfolder : folder ≠ "") (hn : '/' ∉ n.toList) :
    ∃ back, FilePath.join folder n = folder ++ back := by
  have hhead : ¬ FilePath.isAbsolute n := by
    intro habsolute
    unfold FilePath.isAbsolute at habsolute
    exact hn (List.mem_of_head? (of_decide_eq_true habsolute))
  unfold FilePath.join
  rw [if_neg (by simp [hhead, hfolder])]
  split
  · exact ⟨n, rfl⟩
  · exact ⟨"/" ++ n, String.append_assoc ..⟩

theorem start_snd (base : Location) (path : String) : (start base path).2 = FilePath.split path := by
  unfold start
  split <;> rfl

theorem start_fst {path path' : String} (base : Location) (h : FilePath.isAbsolute path = FilePath.isAbsolute path') :
    (start base path).1 = (start base path').1 := by
  unfold start
  rw [h]
  split <;> rfl

/-- Where a plain name below a folder leads somewhere, the folder is one. -/
theorem isFolder_of_find {tree : FileTree δ} {folder n : String} (hfolder : folder ≠ "") (hn : '/' ∉ n.toList)
    {e : Entry δ} (h : tree.find (FilePath.join folder n) = .ok e) : tree.isFolder folder = true := by
  obtain ⟨there, hthere, -⟩ := find_eq_ok.mp h
  obtain ⟨habsolute, ps, tail, hps, hjoin, htail⟩ := FilePath.split_join hfolder hn
  obtain ⟨back, hback⟩ := join_eq hfolder hn
  obtain ⟨-, hwalk⟩ := locate_eq_ok hthere
  rw [start_snd, hjoin, start_fst [] habsolute] at hwalk
  have hlocate : tree.locate folder = tree.walk mostLinks (start [] folder).1 (ps ++ tail) := by
    have hshort : tree.locate folder = tree.walk mostLinks (start [] folder).1 (start [] folder).2 := by
      unfold locate at hthere ⊢
      split at hthere
      · cases hthere
      rename_i hnul
      split at hthere
      · cases hthere
      split at hthere
      · cases hthere
      rename_i hlong
      rw [hback, String.toList_append, List.contains_iff_mem, List.mem_append, not_or] at hnul
      rw [hback, String.utf8ByteSize_append] at hlong
      rw [if_neg (by simpa using hnul.1), if_neg (by simpa using hfolder), if_neg (by omega)]
    rw [hshort, start_snd, hps]
  rcases tree.walk_append mostLinks (start [] folder).1 ps with ⟨err, herr⟩ | ⟨left, place, hplace⟩
  · rw [herr] at hwalk
    cases hwalk
  rw [hplace] at hlocate hwalk
  obtain ⟨follow, hfollow⟩ := tree.walk_eq left
  -- The walk goes on with the name below, so it has come to a folder.
  have hentry : tree.entry? place = some .folder := by
    rw [hfollow, walkWith] at hwalk
    split at hwalk
    · cases hwalk
    · assumption
    · cases hwalk
  refine isFolder_iff.mpr ⟨place, ?_, hentry⟩
  rw [hlocate, hfollow]
  rcases htail with rfl | rfl
  · rfl
  · simp [walkWith, hentry]

/-! ## Names taken away -/

/-- The tree without some names of a folder and all that is below them. -/
def without (tree : FileTree δ) (folder : Location) (names : List String) : FileTree δ :=
  ⟨tree.entries.filter fun (there, _) => !names.any fun n => (folder ++ [n]).isPrefixOf there⟩

theorem lookup_filter_key {α β : Type} [BEq α] [LawfulBEq α] (p : α → Bool) (l : List (α × β)) (a : α) :
    (l.filter fun e => p e.1).lookup a = if p a then l.lookup a else none := by
  induction l with
  | nil => simp
  | cons e l ih =>
    obtain ⟨k, v⟩ := e
    rw [List.filter_cons]
    by_cases hk : a = k
    · subst hk
      cases hp : p a <;> simp [hp, ih]
    · have hne : (a == k) = false := beq_false_of_ne hk
      cases hp : p k <;> simp [List.lookup_cons, hne, ih]

section
variable {tree : FileTree δ} {folder : Location} {names : List String}

theorem without_within : (tree.without folder names).Within Eq tree := by
  intro loc e he
  refine ⟨e, ?_, rfl⟩
  unfold entry? at he ⊢
  split at he
  · rwa [if_pos ‹_›]
  · rw [if_neg ‹_›]
    unfold without at he
    rw [lookup_filter_key (fun there => !names.any fun n => (folder ++ [n]).isPrefixOf there)] at he
    split at he
    · exact he
    · cases he

theorem find_of_without {path : String} {e : Entry δ} (h : (tree.without folder names).find path = .ok e) :
    tree.find path = .ok e := by
  obtain ⟨e', he', rfl⟩ := find_within steady_eq without_within h
  exact he'

theorem namesIn_without {path : String} (h : (tree.without folder names).locate path = .ok folder)
    (h' : tree.locate path = .ok folder) :
    (tree.without folder names).namesIn path = (tree.namesIn path).filter (· ∉ names) := by
  unfold namesIn
  rw [h, h']
  dsimp only [without]
  rw [List.filterMap_filter, List.filter_filterMap]
  refine List.filterMap_congr fun e _ => ?_
  obtain ⟨there, e⟩ := e
  rcases List.eq_nil_or_concat there with rfl | ⟨above, m, rfl⟩
  · simp
  · by_cases habove : above = folder
    · subst habove
      by_cases hm : m ∈ names <;> simp [hm, Option.filter]
    · simp [habove]

end

end PresetWorkspace.FileTree
