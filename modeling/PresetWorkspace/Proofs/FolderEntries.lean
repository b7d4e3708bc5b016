import Mathlib.Data.List.Nodup
import PresetWorkspace.FileTree

/-!
# The entries of a folder

A path below a folder leads to one of the folder's entries: the walk to the
folder comes first, with some links left to follow, and the last name is
looked up where that walk ends. A walk looks at a tree only through
`FileTree.entry?`, so the order of the entries is nothing to it.
-/

namespace PresetWorkspace

/-! ## Pieces of a path -/

namespace FilePath

theorem pieces_ne_nil (cs : List Char) : pieces cs ≠ [] := by
  cases cs with
  | nil => simp [pieces]
  | cons c cs =>
    rw [pieces]
    split
    · simp
    · split <;> simp

theorem pieces_append (cs ds : List Char) : pieces (cs ++ '/' :: ds) = pieces cs ++ pieces ds := by
  induction cs with
  | nil => simp [pieces]
  | cons c cs ih =>
    rw [List.cons_append, pieces, pieces, ih]
    by_cases h : c = '/'
    · simp [h]
    · obtain ⟨p, ps, hp⟩ := List.exists_cons_of_ne_nil (pieces_ne_nil cs)
      simp [h, hp]

theorem pieces_of_notMem {cs : List Char} (h : '/' ∉ cs) : pieces cs = [cs] := by
  induction cs with
  | nil => rfl
  | cons c cs ih =>
    simp only [List.mem_cons, not_or] at h
    rw [pieces, ih h.2, if_neg (Ne.symm h.1)]

/-- A name below a folder is the last piece of its path; a slash after the folder makes an empty piece. -/
theorem split_join {folder name : String} (hfolder : folder ≠ "") (hname : '/' ∉ name.toList) :
    isAbsolute (join folder name) = isAbsolute folder ∧
      ∃ ps tail, split folder = ps ++ tail ∧ split (join folder name) = ps ++ [name] ∧ (tail = [] ∨ tail = [""]) := by
  have hhead : isAbsolute name = false := by
    unfold isAbsolute
    cases h : name.toList with
    | nil => rfl
    | cons c cs =>
      rw [h, List.mem_cons, not_or] at hname
      simp [Ne.symm hname.1]
  obtain ⟨c, cs, hcs⟩ : ∃ c cs, folder.toList = c :: cs := by
    refine List.exists_cons_of_ne_nil fun h => hfolder ?_
    rw [← String.ofList_toList (s := folder), h]
  have hsplit : split name = [name] := by simp [split, pieces_of_notMem hname]
  unfold join
  rw [if_neg (by simp [hhead, hfolder])]
  split
  · rename_i hlast
    obtain ⟨front, hfront⟩ : ∃ front, folder.toList = front ++ ['/'] := List.getLast?_eq_some_iff.mp hlast
    refine ⟨by simp [isAbsolute, hcs], (pieces front).map String.ofList, [""], ?_, ?_, .inr rfl⟩
    · simp [split, hfront, pieces_append, pieces]
    · simp [split, hfront, pieces_append, pieces_of_notMem hname]
  · refine ⟨by simp [isAbsolute, hcs], split folder, [], by simp, ?_, .inl rfl⟩
    simp [split, pieces_append, pieces_of_notMem hname]

end FilePath

/-! ## Walks -/

namespace FileTree

variable {δ : Type}

section
variable (tree : FileTree δ)

theorem walk_eq (links : Nat) : ∃ follow, tree.walk links = walkWith tree follow := by
  cases links with
  | zero => exact ⟨_, rfl⟩
  | succ links => exact ⟨_, rfl⟩

/-- A walk of some pieces fails at once or comes to a place, where all further pieces are walked. -/
theorem walk_append (links : Nat) (base : Location) (ps : List String) :
    (∃ e, ∀ qs, tree.walk links base (ps ++ qs) = .error e) ∨
      ∃ left loc, ∀ qs, tree.walk links base (ps ++ qs) = tree.walk left loc qs := by
  -- First the walk of one base, up to its first link; then what is left of the links.
  have hwith (links : Nat) (follow : Location → List String → Except FileError Location)
      (hwalk : tree.walk links = walkWith tree follow)
      (hfollow : ∀ base ps, (∃ e, ∀ qs, follow base (ps ++ qs) = .error e) ∨
        ∃ left loc, ∀ qs, follow base (ps ++ qs) = tree.walk left loc qs) :
      ∀ ps base, (∃ e, ∀ qs, walkWith tree follow base (ps ++ qs) = .error e) ∨
        ∃ left loc, ∀ qs, walkWith tree follow base (ps ++ qs) = tree.walk left loc qs := by
    intro ps
    induction ps with
    | nil => exact fun base => .inr ⟨links, base, fun qs => by rw [hwalk]; rfl⟩
    | cons n ps ih =>
      intro base
      simp only [List.cons_append, walkWith]
      split
      · exact .inl ⟨_, fun _ => rfl⟩
      · split
        · exact ih base
        · split
          · exact ih _
          · split
            · exact .inl ⟨_, fun _ => rfl⟩
            · split
              · rename_i target _
                simp only [← List.append_assoc]
                exact hfollow _ _
              · exact ih _
      · exact .inl ⟨_, fun _ => rfl⟩
  induction links generalizing base ps with
  | zero => exact hwith 0 _ rfl (fun _ _ => .inl ⟨_, fun _ => rfl⟩) ps base
  | succ links ih => exact hwith (links + 1) _ rfl ih ps base

end

section
variable {tree : FileTree δ} {loc : Location} {n : String}

theorem entry?_below (hn : n ≠ ".." ∧ '/' ∉ n.toList) :
    tree.entry? (loc ++ [n]) = tree.entries.lookup (loc ++ [n]) := by
  have hslash : n ≠ "/" := by
    rintro rfl
    exact hn.2 (by decide)
  unfold entry? isOutside
  rw [if_neg]
  cases loc with
  | nil => simp [hn.1, hslash]
  | cons m loc => simp [hn.1]

theorem mem_namesIn {path : String} (hloc : tree.locate path = .ok loc) {e : Entry δ}
    (he : tree.entries.lookup (loc ++ [n]) = some e) : n ∈ tree.namesIn path := by
  obtain ⟨front, back, hentries, _⟩ := List.lookup_eq_some_iff.mp he
  unfold namesIn
  rw [hloc, hentries]
  simp

end

section
variable {tree : FileTree δ} {links : Nat} {loc there : Location}

theorem walk_blank {tail : List String} (htail : tail = [] ∨ tail = [""])
    (h : tree.walk links loc tail = .ok there) : there = loc := by
  obtain ⟨follow, hfollow⟩ := tree.walk_eq links
  rw [hfollow] at h
  rcases htail with rfl | rfl
  · cases h
    rfl
  · rw [walkWith] at h
    split at h
    · cases h
    · rw [if_pos (.inl rfl)] at h
      cases h
      rfl
    · cases h

/-- One name further than a folder is its entry of that name, or where a link of that name leads. -/
theorem walk_name {n : String} (hfolder : tree.entry? loc = some .folder) (hn : n ≠ "" ∧ n ≠ "." ∧ n ≠ "..")
    (h : tree.walk links loc [n] = .ok there) :
    there = loc ++ [n] ∨ ∃ target, tree.entry? (loc ++ [n]) = some (.link target) := by
  obtain ⟨follow, hfollow⟩ := tree.walk_eq links
  rw [hfollow, walkWith, hfolder] at h
  simp only at h
  rw [if_neg (by simp [hn.1, hn.2.1]), if_neg hn.2.2] at h
  split at h
  · cases h
  · split at h
    · rename_i target htarget
      exact .inr ⟨target, htarget⟩
    · cases h
      exact .inl rfl

end

theorem isFolder_iff {tree : FileTree δ} {path : String} :
    tree.isFolder path = true ↔ ∃ loc, tree.locate path = .ok loc ∧ tree.entry? loc = some .folder := by
  unfold isFolder find
  cases hloc : tree.locate path with
  | error e => simp [bind, Except.bind]
  | ok loc =>
    simp only [bind, Except.bind]
    cases hentry : tree.entry? loc with
    | none => simp [throw, throwThe, MonadExceptOf.throw, hentry]
    | some e => cases e <;> simp [pure, Except.pure, hentry]

theorem locate_eq_ok {tree : FileTree δ} {path : String} {loc : Location} (h : tree.locate path = .ok loc) :
    path ≠ "" ∧ tree.walk mostLinks (start [] path).1 (start [] path).2 = .ok loc := by
  unfold locate at h
  split at h
  · cases h
  split at h
  · cases h
  rename_i hempty
  split at h
  · cases h
  · exact ⟨by simpa using hempty, h⟩

/-- What a name below a folder leads to is an entry of the folder. -/
theorem mem_namesIn_of_find {tree : FileTree δ} {folder n : String} (hfolder : tree.isFolder folder = true)
    (hn : n ≠ "" ∧ n ≠ "." ∧ n ≠ ".." ∧ '/' ∉ n.toList) {e : Entry δ}
    (h : tree.find (FilePath.join folder n) = .ok e) : n ∈ tree.namesIn folder := by
  obtain ⟨hempty, hdot, hup, hslash⟩ := hn
  obtain ⟨loc, hloc, hentry⟩ := isFolder_iff.mp hfolder
  obtain ⟨hne, hwalk⟩ := locate_eq_ok hloc
  obtain ⟨habsolute, ps, tail, hps, hjoin, htail⟩ := FilePath.split_join hne hslash
  unfold find at h
  cases hthere : tree.locate (FilePath.join folder n) with
  | error e => rw [hthere] at h; cases h
  | ok there =>
    rw [hthere] at h
    obtain ⟨_, hwalk'⟩ := locate_eq_ok hthere
    have hbase : (start [] (FilePath.join folder n)).1 = (start [] folder).1 := by
      unfold start
      rw [habsolute]
      split <;> rfl
    have hpieces (path : String) : (start [] path).2 = FilePath.split path := by
      unfold start
      split <;> rfl
    rw [hpieces, hps] at hwalk
    rw [hbase, hpieces, hjoin] at hwalk'
    rcases tree.walk_append mostLinks (start [] folder).1 ps with ⟨e, he⟩ | ⟨left, place, hplace⟩
    · rw [he] at hwalk
      cases hwalk
    rw [hplace] at hwalk hwalk'
    obtain rfl := walk_blank htail hwalk
    have hbelow : tree.entry? (loc ++ [n]) = tree.entries.lookup (loc ++ [n]) := entry?_below ⟨hup, hslash⟩
    have hthere : ∃ e, tree.entry? (loc ++ [n]) = some e := by
      rcases walk_name hentry ⟨hempty, hdot, hup⟩ hwalk' with rfl | ⟨target, htarget⟩
      · simp only [bind, Except.bind] at h
        split at h
        · exact ⟨_, ‹_›⟩
        · cases h
      · exact ⟨_, htarget⟩
    obtain ⟨e, he⟩ := hthere
    exact mem_namesIn hloc (hbelow ▸ he)

/-! ## The order of the entries -/

/-- The same entries in another order; no location has two of them. -/
structure SameEntries (tree tree' : FileTree δ) : Prop where
  perm : tree.entries.Perm tree'.entries
  nodup : (tree.entries.map (·.1)).Nodup

theorem lookup_perm {α β : Type} [BEq α] [LawfulBEq α] {l l' : List (α × β)} (h : l.Perm l')
    (hnodup : (l.map (·.1)).Nodup) (a : α) : l.lookup a = l'.lookup a := by
  induction h with
  | nil => rfl
  | cons e h ih =>
    rw [List.map_cons, List.nodup_cons] at hnodup
    rw [List.lookup_cons, List.lookup_cons, ih hnodup.2]
  | swap e e' l =>
    obtain ⟨k, v⟩ := e
    obtain ⟨k', v'⟩ := e'
    simp only [List.map_cons, List.nodup_cons, List.mem_cons, not_or] at hnodup
    simp only [List.lookup_cons]
    by_cases hk : a = k
    · subst hk
      simp [beq_false_of_ne (Ne.symm hnodup.1.1)]
    · rw [beq_false_of_ne hk]
  | trans h h' ih ih' => exact (ih hnodup).trans (ih' ((h.map _).nodup_iff.mp hnodup))

section
variable {tree tree' : FileTree δ} (h : tree.SameEntries tree')
include h

theorem SameEntries.entry?_eq (loc : Location) : tree.entry? loc = tree'.entry? loc := by
  unfold entry?
  rw [lookup_perm h.perm h.nodup]

theorem SameEntries.walkWith_eq (follow : Location → List String → Except FileError Location) (ps : List String)
    (loc : Location) : walkWith tree follow loc ps = walkWith tree' follow loc ps := by
  induction ps generalizing loc with
  | nil => rfl
  | cons n ps ih => simp only [walkWith, h.entry?_eq, ih]

theorem SameEntries.walk_eq (links : Nat) : tree.walk links = tree'.walk links := by
  induction links with
  | zero =>
    funext loc ps
    exact h.walkWith_eq _ ps loc
  | succ links ih =>
    funext loc ps
    rw [walk, walk, ih]
    exact h.walkWith_eq _ ps loc

theorem SameEntries.locate_eq (path : String) : tree.locate path = tree'.locate path := by
  unfold locate
  rw [h.walk_eq]

theorem SameEntries.find_eq (path : String) : tree.find path = tree'.find path := by
  unfold find
  rw [h.locate_eq]
  simp only [h.entry?_eq]

theorem SameEntries.namesIn_perm (path : String) : (tree.namesIn path).Perm (tree'.namesIn path) := by
  unfold namesIn
  rw [h.locate_eq]
  split
  · exact .refl _
  · exact h.perm.filterMap _

end

end FileTree

end PresetWorkspace
