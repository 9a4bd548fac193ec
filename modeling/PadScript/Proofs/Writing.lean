import PadScript.Proofs.FileName
import PadScript.Proofs.FileTree

/-!
# Writing beside a file

A file is written at the place where its path ends. Another path still leads where it led before,
unless it led to that place (`locate_put`): a walk goes through directories and links, and what is
written stands where there was nothing or a file.

1. `move` is what one piece of a path does, whatever the walk is for. A walk is made of moves
   (`walk_cons`).
2. Two paths that differ in their last pieces come to the same directory, or are both refused on
   the way (`way`). If no link stands at their ends, they end at two names in it, so they lead to
   different places (`locate_ne_of_siblings`).
-/

namespace PadScript

namespace Path.Anchor

/-- The place where a path with this start begins, seen from a directory. -/
def place (base : Location) : Anchor → Location
  | .root => []
  | .here => base
  | .plain => base

/-- The piece that a start takes. -/
def lead : Anchor → List Text
  | .root => []
  | .here => [['.']]
  | .plain => []

end Path.Anchor

namespace FileTree

variable {tree : FileTree} {here place out : Location} {links : Nat} {goal : Goal}

theorem start_eq_parts (base : Location) (path : Path) :
    start base path = (path.parts.1.place base, path.parts.1.lead ++ path.parts.2) := by
  cases habsolute : path.isAbsolute with
  | true =>
    obtain ⟨text⟩ := path
    obtain ⟨rest, rfl⟩ : ∃ rest, text = '/' :: rest :=
      List.head?_eq_some_iff.mp (by simpa [Path.isAbsolute] using habsolute)
    rfl
  | false =>
    have hstart : start base path = (base, Text.pieces '/' path.text) := by
      unfold start
      split
      · rename_i rest htext
        simp [Path.isAbsolute, htext] at habsolute
      · rfl
    rw [hstart, Path.parts_of_relative habsolute]
    split
    · rename_i rest hpieces
      rw [hpieces]
      rfl
    · rfl

/-! ## Moves -/

/-- What one piece of a path does. -/
inductive Move where
  | refused (e : FileFault)
  | go (place : Location)
  | link (target : Path)

/-- What a piece that more pieces follow does at a location. -/
def move (tree : FileTree) (here : Location) (piece : Text) : Move :=
  if !tree.isDirectory here then .refused .notDirectory
  else if Path.isIdle piece then .go here
  else if piece = ['.', '.'] then .go here.dropLast
  else if maxName < (Utf8.encode piece).length then .refused .nameTooLong
  else
    match tree.find? (here ++ [piece]) with
    | none => .refused .notFound
    | some (.link target) => .link target
    | some _ => .go (here ++ [piece])

/-- How a walk that may go behind so many links goes on behind the next one. -/
def follow (tree : FileTree) (goal : Goal) :
    Nat → Location → List Text → Except FileFault Location
  | 0 => fun _ _ => .error .linkLoop
  | links + 1 => tree.walk goal links

theorem walk_eq_walkWith (tree : FileTree) (goal : Goal) (links : Nat) :
    tree.walk goal links = tree.walkWith goal (tree.follow goal links) := by
  cases links <;> rfl

theorem walk_nil (tree : FileTree) (goal : Goal) (links : Nat) (here : Location) :
    tree.walk goal links here [] = .ok here := by
  rw [walk_eq_walkWith, walkWith]

/-- A walk moves by its first piece, unless this is where a file is to be written. -/
theorem walk_cons {piece : Text} {rest : List Text}
    (h : goal = .existing ∨ ∃ other ∈ rest, other ≠ []) :
    tree.walk goal links here (piece :: rest) =
      match tree.move here piece with
      | .refused e => .error e
      | .go next => tree.walk goal links next rest
      | .link target =>
        tree.follow goal links (start here target).1 ((start here target).2 ++ rest) := by
  have hinner : (decide (goal = .writable) && rest.all (·.isEmpty)) = false := by
    rcases h with rfl | ⟨other, hmem, hne⟩
    · rfl
    · simp only [Bool.and_eq_false_iff, List.all_eq_false]
      exact .inr ⟨other, hmem, by simpa using hne⟩
  rw [walk_eq_walkWith, walkWith, move]
  simp only [hinner, Bool.false_and, Bool.false_eq_true, if_false]
  split
  · rfl
  split
  · rfl
  split
  · rfl
  split
  · rfl
  cases hfind : tree.find? (here ++ [piece]) with
  | none => rfl
  | some entry => cases entry <;> rfl

/-- A move stays or goes up from a directory, or goes by a name: down, or to a link. -/
inductive Moves (tree : FileTree) (here : Location) (piece : Text) : Move → Prop where
  | refused (e : FileFault) : Moves tree here piece (.refused e)
  | stay (hdirectory : tree.isDirectory here = true) (hname : ¬ Path.IsName piece) :
      Moves tree here piece (.go here)
  | up (hdirectory : tree.isDirectory here = true) (hname : ¬ Path.IsName piece) :
      Moves tree here piece (.go here.dropLast)
  | down (hname : Path.IsName piece) : Moves tree here piece (.go (here ++ [piece]))
  | link (target : Path) (hname : Path.IsName piece)
      (hfind : tree.find? (here ++ [piece]) = some (.link target)) :
      Moves tree here piece (.link target)

theorem moves (tree : FileTree) (here : Location) (piece : Text) :
    tree.Moves here piece (tree.move here piece) := by
  unfold move
  split
  · exact .refused _
  rename_i hdirectory
  replace hdirectory : tree.isDirectory here = true := by simpa using hdirectory
  split
  · rename_i hidle
    exact .stay hdirectory fun hname => Bool.false_ne_true (hname.step ▸ hidle)
  rename_i hidle
  split
  · rename_i hup
    exact .up hdirectory fun hname => hname.up hup
  rename_i hup
  have hname : Path.IsName piece := ⟨Bool.eq_false_iff.mpr hidle, hup⟩
  split
  · exact .refused _
  split
  · exact .refused _
  · rename_i target hfind
    exact .link target hname hfind
  · exact .down hname

/-! ## Writing elsewhere -/

/-- A file can be written here: there is nothing, or a file. -/
def Free (tree : FileTree) (place : Location) : Prop :=
  tree.find? place = none ∨ ∃ content, tree.find? place = some (.file content)

theorem Free.isDirectory (h : tree.Free out) : tree.isDirectory out = false := by
  rcases h with h | ⟨content, h⟩
  · simp [FileTree.isDirectory, h]
  · simp [FileTree.isDirectory, h]

theorem isDirectory_put_of_ne {entry : Entry} (h : here ≠ out) :
    (tree.put out entry).isDirectory here = tree.isDirectory here := by
  unfold FileTree.isDirectory
  rw [find?_put_of_ne tree entry h]

/-- A move is the same after a file is written elsewhere. -/
theorem move_put {piece : Text} {content : Bytes} (hout : tree.Free out)
    (hgo : tree.move here piece ≠ .go out) (hok : ∀ e, tree.move here piece ≠ .refused e) :
    (tree.put out (.file content)).move here piece = tree.move here piece := by
  have hhere : here ≠ out := by
    rintro rfl
    exact hok .notDirectory (by simp [move, hout.isDirectory])
  by_cases hpiece : here ++ [piece] = out
  · -- a step down to the new file was refused before, or led there
    unfold move at hgo hok ⊢
    rw [isDirectory_put_of_ne hhere]
    split
    · rfl
    split
    · rfl
    split
    · rfl
    split
    · rfl
    rename_i hdirectory hidle hup hlength
    simp only [hdirectory, hidle, hup, hlength, if_false, hpiece] at hgo hok
    rcases hout with hfind | ⟨found, hfind⟩
    · simp [hfind] at hok
    · simp [hfind] at hgo
  · unfold move
    rw [isDirectory_put_of_ne hhere, find?_put_of_ne tree _ hpiece]

/-- A walk leads where it led before a file was written elsewhere. -/
theorem walk_put {pieces : List Text} {content : Bytes} (hout : tree.Free out)
    (h : tree.walk .existing links here pieces = .ok place) (hne : place ≠ out) :
    (tree.put out (.file content)).walk .existing links here pieces = .ok place := by
  -- along the pieces; behind a link there are new pieces, but fewer links may be followed
  induction links using Nat.strongRecOn generalizing here pieces with
  | ind links ihlinks =>
    induction pieces generalizing here with
    | nil =>
      rw [walk_nil] at h ⊢
      exact h
    | cons piece rest ih =>
      rw [walk_cons (.inl rfl)] at h ⊢
      by_cases hgo : tree.move here piece = .go out
      · -- nothing is found behind a file
        simp only [hgo] at h
        cases rest with
        | nil =>
          rw [walk_nil] at h
          exact absurd (Except.ok.inj h).symm hne
        | cons other rest =>
          rw [walk_cons (.inl rfl)] at h
          simp [move, hout.isDirectory] at h
      · cases hmove : tree.move here piece with
        | refused e => simp [hmove] at h
        | go next =>
          rw [move_put hout hgo (by simp [hmove]), hmove]
          rw [hmove] at h
          exact ih h
        | link target =>
          rw [move_put hout hgo (by simp [hmove]), hmove]
          rw [hmove] at h
          cases links with
          | zero => cases h
          | succ links => exact ihlinks links (Nat.lt_succ_self links) h

theorem locate_eq_ok_iff {path : Path} :
    tree.locate goal path = .ok place ↔ checkName path = .ok () ∧
      tree.walk goal maxLinks (start tree.home path).1 (start tree.home path).2 = .ok place := by
  constructor
  · intro h
    obtain ⟨_, hname, hwalk⟩ := bind_eq_ok_iff.mp h
    exact ⟨hname, hwalk⟩
  · rintro ⟨hname, hwalk⟩
    exact bind_eq_ok_iff.mpr ⟨_, hname, hwalk⟩

theorem locate_put {path : Path} {content : Bytes} (hout : tree.Free out)
    (h : tree.locate .existing path = .ok place) (hne : place ≠ out) :
    (tree.put out (.file content)).locate .existing path = .ok place := by
  obtain ⟨hname, hwalk⟩ := locate_eq_ok_iff.mp h
  exact locate_eq_ok_iff.mpr ⟨hname, walk_put hout hwalk hne⟩

/-! ## The last piece -/

/-- Walks that go these pieces and then one more are refused on the way, or come to a place from
which the last piece is walked. A last piece without text is only for a walk to what exists. -/
inductive Way (tree : FileTree) (links : Nat) (here : Location) (before : List Text) : Prop where
  | refused (e : FileFault)
      (h : ∀ goal name, goal = .existing ∨ name ≠ [] →
        tree.walk goal links here (before ++ [name]) = .error e)
  | leads (next : Location) (left : Nat)
      (hnext : tree.walk .existing links here before = .ok next)
      (h : ∀ goal name, goal = .existing ∨ name ≠ [] →
        tree.walk goal links here (before ++ [name]) = tree.walk goal left next [name])

/-- Walks that go on as others do come to the same place. -/
theorem Way.congr {links' : Nat} {here' : Location} {before before' : List Text}
    (hway : tree.Way links' here' before')
    (hbefore : tree.walk .existing links here before = tree.walk .existing links' here' before')
    (h : ∀ goal name, goal = .existing ∨ name ≠ [] →
      tree.walk goal links here (before ++ [name]) =
        tree.walk goal links' here' (before' ++ [name])) :
    tree.Way links here before := by
  cases hway with
  | refused e he =>
    exact .refused e fun goal name hname => (h goal name hname).trans (he goal name hname)
  | leads next left hnext hleft =>
    exact .leads next left (hbefore.trans hnext) fun goal name hname =>
      (h goal name hname).trans (hleft goal name hname)

theorem way (tree : FileTree) (links : Nat) (here : Location) (before : List Text) :
    tree.Way links here before := by
  induction links using Nat.strongRecOn generalizing here before with
  | ind links ihlinks =>
    induction before generalizing here with
    | nil => exact .leads here links (walk_nil ..) fun _ _ _ => rfl
    | cons piece rest ih =>
      have hmore : ∀ (goal : Goal) (name : Text), goal = .existing ∨ name ≠ [] →
          goal = .existing ∨ ∃ other ∈ rest ++ [name], other ≠ [] :=
        fun goal name h => h.imp_right fun hne => ⟨name, by simp, hne⟩
      cases hmove : tree.move here piece with
      | refused e =>
        refine .refused e fun goal name hname => ?_
        rw [List.cons_append, walk_cons (hmore goal name hname), hmove]
      | go next =>
        refine (ih next).congr ?_ fun goal name hname => ?_
        · rw [walk_cons (.inl rfl), hmove]
        · rw [List.cons_append, walk_cons (hmore goal name hname), hmove]
      | link target =>
        cases links with
        | zero =>
          refine .refused .linkLoop fun goal name hname => ?_
          rw [List.cons_append, walk_cons (hmore goal name hname), hmove]
          rfl
        | succ links =>
          refine (ihlinks links (Nat.lt_succ_self links) (start here target).1
            ((start here target).2 ++ rest)).congr ?_ fun goal name hname => ?_
          · rw [walk_cons (.inl rfl), hmove]
            rfl
          · rw [List.cons_append, walk_cons (hmore goal name hname), hmove, List.append_assoc]
            rfl

/-- The last piece of a walk is a name, or there is a directory. -/
theorem walk_singleton_eq_ok {name : Text}
    (h : tree.walk .existing links here [name] = .ok place) :
    ¬ Path.IsName name ∧ tree.isDirectory here = true ∧ (place = here ∨ place = here.dropLast) ∨
      Path.IsName name ∧
        (place = here ++ [name] ∨ ∃ target, tree.find? (here ++ [name]) = some (.link target)) := by
  rw [walk_cons (.inl rfl)] at h
  simp only [walk_nil] at h
  have hmoves := tree.moves here name
  generalize tree.move here name = step at h hmoves
  cases hmoves with
  | refused e => cases h
  | stay hdirectory hname =>
    cases h
    exact .inl ⟨hname, hdirectory, .inl rfl⟩
  | up hdirectory hname =>
    cases h
    exact .inl ⟨hname, hdirectory, .inr rfl⟩
  | down hname =>
    cases h
    exact .inr ⟨hname, .inl rfl⟩
  | link target hname hfind => exact .inr ⟨hname, .inr ⟨target, hfind⟩⟩

/-- The last piece of a path to write is a name where a file can be written, or a link. -/
theorem walk_writable_singleton_eq_ok {name : Text}
    (h : tree.walk .writable links here [name] = .ok place) :
    place = here ++ [name] ∧ tree.Free place ∨
      ∃ target, tree.find? (here ++ [name]) = some (.link target) := by
  rw [walk_eq_walkWith, walkWith] at h
  simp only [decide_true, List.all_nil, Bool.and_true, List.isEmpty_nil, Bool.not_true,
    Bool.false_or, Bool.true_and, if_true] at h
  split at h
  · cases h
  split at h
  · cases h
  rename_i hstep
  simp only [Bool.or_eq_true, decide_eq_true_eq, not_or] at hstep
  rw [if_neg hstep.1, if_neg hstep.2] at h
  split at h
  · cases h
  cases hfind : tree.find? (here ++ [name]) with
  | none =>
    simp only [hfind, Except.ok.injEq] at h
    exact .inl ⟨h.symm, h ▸ .inl hfind⟩
  | some entry =>
    cases entry with
    | link target => exact .inr ⟨target, rfl⟩
    | directory => simp [hfind] at h
    | file content =>
      simp only [hfind, walkWith, Except.ok.injEq] at h
      exact .inl ⟨h.symm, h ▸ .inr ⟨content, hfind⟩⟩

/-! ## Paths that end at a name -/

/-- Whether a link stands at the last piece of a path. -/
def endsAtLink (tree : FileTree) (path : Path) : Bool :=
  let (base, pieces) := start tree.home path
  match pieces.getLast?, tree.walk .existing maxLinks base pieces.dropLast with
  | some name, .ok here =>
    match tree.find? (here ++ [name]) with
    | some (.link _) => true
    | _ => false
  | _, _ => false

theorem find?_ne_link {path : Path} {base : Location} {before : List Text} {name : Text}
    (h : tree.endsAtLink path = false) (hstart : start tree.home path = (base, before ++ [name]))
    (hbefore : tree.walk .existing maxLinks base before = .ok here) (target : Path) :
    tree.find? (here ++ [name]) ≠ some (.link target) := by
  intro hfind
  simp [endsAtLink, hstart, hbefore, hfind] at h

theorem Settled.isDirectory_dropLast (h : tree.Settled here) :
    tree.isDirectory here.dropLast = true := by
  rcases List.eq_nil_or_concat here with rfl | ⟨before, name, rfl⟩
  · rfl
  · rw [List.concat_eq_append, List.dropLast_concat]
    exact (h before name ⟨[], by simp⟩).directory

/-- After a separator, a `.` or a `..` there is a directory. -/
theorem isName_of_walk_concat {before : List Text} {name : Text} (hhere : tree.Settled here)
    (hslash : ∀ piece ∈ before, '/' ∉ piece)
    (h : tree.walk .existing links here (before ++ [name]) = .ok place)
    (hplace : tree.isDirectory place = false) : Path.IsName name := by
  cases tree.way links here before with
  | refused e he => simp [he .existing name (.inl rfl)] at h
  | leads next left hnext hlast =>
    have hsettled := settled_of_walk hhere hslash hnext
    rw [hlast .existing name (.inl rfl)] at h
    rcases walk_singleton_eq_ok h with ⟨-, hdirectory, rfl | rfl⟩ | ⟨hname, -⟩
    · rw [hdirectory] at hplace
      cases hplace
    · rw [hsettled.isDirectory_dropLast] at hplace
      cases hplace
    · exact hname

/-- A path to a file ends in the name of the file, or of a link to it. -/
theorem exists_endsIn_of_locate (hhome : tree.Settled tree.home) {path : Path}
    (h : tree.locate .existing path = .ok place) (hplace : tree.isDirectory place = false) :
    ∃ before name, path.EndsIn before name := by
  obtain ⟨-, hwalk⟩ := locate_eq_ok_iff.mp h
  obtain ⟨hbase, hslash⟩ := settled_start hhome path
  rw [start_eq_parts] at hwalk hbase hslash
  rcases List.eq_nil_or_concat path.parts.2 with hpieces | ⟨before, name, hpieces⟩
  · -- only a path that is a single `.` has no pieces after its start
    cases hanchor : path.parts.1 with
    | here =>
      simp only [hanchor, hpieces, Path.Anchor.lead, List.append_nil] at hwalk hbase
      have hname : Path.IsName ['.'] := isName_of_walk_concat hbase
        (fun piece (hmem : piece ∈ []) => nomatch hmem) hwalk hplace
      cases hname.step
    | root => exact absurd hpieces ((Path.wellCut_parts path).nonempty (by simp [hanchor]))
    | plain => exact absurd hpieces ((Path.wellCut_parts path).nonempty (by simp [hanchor]))
  · rw [List.concat_eq_append] at hpieces
    simp only [hpieces, ← List.append_assoc] at hwalk hslash
    exact ⟨before, name, hpieces, isName_of_walk_concat hbase
      (fun piece hmem => hslash piece (List.mem_append_left _ hmem)) hwalk hplace⟩

/-- Two different paths that end in one directory, at no link, lead to different places, and a file
can be written at the second one. -/
theorem locate_ne_of_siblings {p q : Path} {before : List Text} {name other : Text}
    (hp : p.EndsIn before name) (hq : q.EndsIn before other) (hanchor : q.parts.1 = p.parts.1)
    (hne : q.same p = false) (hplink : tree.endsAtLink p = false)
    (hqlink : tree.endsAtLink q = false)
    (hplace : tree.locate .existing p = .ok place) (hout : tree.locate .writable q = .ok out) :
    place ≠ out ∧ tree.Free out := by
  obtain ⟨-, hplace⟩ := locate_eq_ok_iff.mp hplace
  obtain ⟨-, hout⟩ := locate_eq_ok_iff.mp hout
  have hpstart := start_eq_parts tree.home p
  have hqstart := start_eq_parts tree.home q
  rw [hp.pieces, ← List.append_assoc] at hpstart
  rw [hq.pieces, hanchor, ← List.append_assoc] at hqstart
  rw [hpstart] at hplace
  rw [hqstart] at hout
  cases tree.way maxLinks (p.parts.1.place tree.home) (p.parts.1.lead ++ before) with
  | refused e he => cases (he .existing name (.inl rfl)).symm.trans hplace
  | leads next left hnext hlast =>
    rw [hlast .existing name (.inl rfl)] at hplace
    rw [hlast .writable other (.inr hq.isName.ne_nil)] at hout
    rcases walk_writable_singleton_eq_ok hout with ⟨rfl, hfree⟩ | ⟨target, hfind⟩
    · refine ⟨?_, hfree⟩
      rcases walk_singleton_eq_ok hplace with ⟨hno, -⟩ | ⟨-, rfl | ⟨target, hfind⟩⟩
      · exact absurd hp.isName hno
      · have hother : other ≠ name := mt (hq.same_iff hp hanchor).mpr (Bool.eq_false_iff.mp hne)
        simpa using Ne.symm hother
      · exact absurd hfind (find?_ne_link hplink hpstart hnext target)
    · exact absurd hfind (find?_ne_link hqlink hqstart hnext target)

/-! ## Files that are written -/

/-- What stands where a path leads. -/
def entryAt? (tree : FileTree) (path : Path) : Option Entry :=
  match tree.locate .existing path with
  | .ok place => tree.find? place
  | .error _ => none

theorem entryAt?_of_locate {path : Path} (h : tree.locate .existing path = .ok place) :
    tree.entryAt? path = tree.find? place := by
  rw [entryAt?, h]

theorem write_eq_ok {path : Path} {content : Bytes} {after : FileTree}
    (h : tree.write path content = .ok after) :
    ∃ out, tree.locate .writable path = .ok out ∧ after = tree.put out (.file content) := by
  obtain ⟨_, -, h⟩ := bind_eq_ok_iff.mp h
  obtain ⟨out, hout, h⟩ := bind_eq_ok_iff.mp h
  exact ⟨out, hout, (Except.ok.inj h).symm⟩

/-- **A file beside the one that is written stays.** -/
theorem entryAt?_write_sibling {p q : Path} {before : List Text} {name other : Text}
    {content : Bytes} {after : FileTree} (hp : p.EndsIn before name) (hq : q.EndsIn before other)
    (hanchor : q.parts.1 = p.parts.1) (hne : q.same p = false)
    (hplink : tree.endsAtLink p = false) (hqlink : tree.endsAtLink q = false)
    (hplace : tree.locate .existing p = .ok place)
    (h : tree.write q content = .ok after) : after.entryAt? p = tree.entryAt? p := by
  obtain ⟨out, hout, rfl⟩ := write_eq_ok h
  obtain ⟨hapart, hfree⟩ := locate_ne_of_siblings hp hq hanchor hne hplink hqlink hplace hout
  rw [entryAt?_of_locate (locate_put hfree hplace hapart), entryAt?_of_locate hplace,
    find?_put_of_ne tree _ hapart]

end FileTree

end PadScript
