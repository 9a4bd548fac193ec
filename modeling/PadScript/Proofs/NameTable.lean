import Mathlib.Data.List.Nodup
import PadScript.Proofs.LetterCase

/-!
# The table of names

A name is looked up among the buttons, then among the directions, and last it is cut into the letter
of a stick and a position. These searches are one search of one table, in which no name stands
twice, so the order of the searches does not matter.

1. Names stand in the tables in capitals. A text has the letters of such a name exactly if its
   capitals are the name (`Text.sameLetters_eq_true_iff`), so searching a table without repeated
   names finds the entry under the capitals of the text (`IsTable.find_eq_some_iff`).
2. The searches one after another are the search of all entries (`lookup_eq_find_entries`), and the
   names of the entries are all names (`map_fst_entries`).
3. No name is a word for a controller at rest, and none holds a parenthesis, so none is read as
   coordinates (`Token.classify_of_lookup`).
-/

namespace PadScript

/-! ## Capitals -/

namespace Text

theorem toNat_toUpper (c : Char) :
    c.toUpper.toNat = if 97 ≤ c.toNat ∧ c.toNat ≤ 122 then c.toNat - 32 else c.toNat := by
  have hrange : (c.val ≥ 'a'.val ∧ c.val ≤ 'z'.val) ↔ (97 ≤ c.toNat ∧ c.toNat ≤ 122) := by
    rw [ge_iff_le, UInt32.le_iff_toNat_le, UInt32.le_iff_toNat_le]
    rfl
  unfold Char.toUpper
  split
  · rename_i h
    have hletter := hrange.mp h
    rw [if_pos hletter]
    show (c.val + ('A'.val - 'a'.val)).toNat = c.val.toNat - 32
    have hval : c.toNat = c.val.toNat := rfl
    have hshift : ('A'.val - 'a'.val).toNat = 2 ^ 32 - 32 := rfl
    rw [UInt32.toNat_add, hshift]
    omega
  · rename_i h
    rw [if_neg fun hletter => h (hrange.mpr hletter)]

/-- Characters have the same capital if they have the same small letter. -/
theorem toUpper_eq_toUpper_iff (c d : Char) : c.toUpper = d.toUpper ↔ c.toLower = d.toLower := by
  rw [← Char.toNat_inj, ← Char.toNat_inj, toNat_toUpper, toNat_toUpper, toNat_toLower,
    toNat_toLower]
  split_ifs <;> omega

/-- The text with its ASCII letters in capitals. -/
def upper (s : Text) : Text := s.map Char.toUpper

theorem upper_eq_upper_iff {s t : Text} : upper s = upper t ↔ lower s = lower t := by
  unfold upper lower
  induction s generalizing t with
  | nil => simp [eq_comm]
  | cons c s ih =>
    cases t with
    | nil => simp
    | cons d t =>
      simp only [List.map_cons, List.cons.injEq, ih]
      exact and_congr_left' (toUpper_eq_toUpper_iff c d)

theorem sameLetters_eq_true_iff {name : Text} (h : upper name = name) {s : Text} :
    sameLetters name s = true ↔ name = upper s := by
  unfold sameLetters
  rw [beq_iff_eq]
  show lower name = lower s ↔ _
  rw [← upper_eq_upper_iff, h]

theorem sameLetters_cons (a c : Char) (name s : Text) :
    sameLetters (a :: name) (c :: s) = (a.toLower == c.toLower && sameLetters name s) := rfl

end Text

/-! ## Tables -/

/-- The letter that stands for a stick in names. -/
def Stick.capital : Stick → Char
  | .left => 'L'
  | .right => 'R'

namespace Symbol

section Tables

variable {α β : Type} {table : List (Text × α)} {name : Text}

/-- The names are in capitals, and no two are the same. -/
structure IsTable (table : List (Text × α)) : Prop where
  capital : ∀ entry ∈ table, Text.upper entry.1 = entry.1
  nodup : (table.map Prod.fst).Nodup

theorem IsTable.find_eq_some_iff (h : IsTable table) {a : α} :
    find table name = some a ↔ (Text.upper name, a) ∈ table := by
  have hname : ∀ entry ∈ table,
      Text.sameLetters entry.1 name = true ↔ entry.1 = Text.upper name :=
    fun entry hentry => Text.sameLetters_eq_true_iff (h.capital entry hentry)
  unfold find
  rw [Option.map_eq_some_iff]
  constructor
  · rintro ⟨entry, hfind, rfl⟩
    have hentry := List.mem_of_find?_eq_some hfind
    have hsame := List.find?_some hfind
    rw [← (hname entry hentry).mp hsame]
    exact hentry
  · intro hmem
    have hsame : ∃ entry ∈ table, Text.sameLetters entry.1 name = true :=
      ⟨_, hmem, (hname _ hmem).mpr rfl⟩
    obtain ⟨entry, hfind⟩ := Option.isSome_iff_exists.mp (List.find?_isSome.mpr hsame)
    have hentry := List.mem_of_find?_eq_some hfind
    have hkey := List.find?_some hfind
    refine ⟨entry, hfind, ?_⟩
    -- the entry that is found has the name of the one that is there, so it is that one
    rw [List.inj_on_of_nodup_map h.nodup hentry hmem ((hname entry hentry).mp hkey)]

theorem find_append (first second : List (Text × α)) (name : Text) :
    find (first ++ second) name = (find first name).or (find second name) := by
  unfold find
  rw [List.find?_append, Option.map_or]

theorem find_map (f : α → β) (table : List (Text × α)) (name : Text) :
    find (table.map fun entry => (entry.1, f entry.2)) name = (find table name).map f := by
  unfold find
  rw [List.find?_map, Option.map_map, Option.map_map]
  rfl

theorem find_lettered (letter c : Char) (f : α → β) (table : List (Text × α)) (rest : Text) :
    find (table.map fun entry => (letter :: entry.1, f entry.2)) (c :: rest) =
      if letter.toLower = c.toLower then (find table rest).map f else none := by
  unfold find
  rw [List.find?_map, Option.map_map]
  simp only [Function.comp_def, Text.sameLetters_cons]
  split
  · rename_i hletter
    simp only [hletter, beq_self_eq_true, Bool.true_and, Option.map_map]
    rfl
  · rename_i hletter
    simp [hletter]

end Tables

/-- The names of the cardinal positions of a stick. -/
def stickEntries (stick : Stick) : List (Text × Symbol) :=
  cardinals.map fun entry => (stick.capital :: entry.1, .cardinal stick entry.2)

/-- Every name, with what it stands for. -/
def entries : List (Text × Symbol) :=
  buttons.map (fun entry => (entry.1, .button entry.2)) ++
    directions.map (fun entry => (entry.1, .direction entry.2)) ++
    stickEntries .left ++ stickEntries .right

theorem map_fst_entries : entries.map Prod.fst = allNames := rfl

theorem isTable_entries : IsTable entries := ⟨by decide, by decide⟩

/-! ## One search -/

theorem findCardinal_eq_bind (name : Text) :
    findCardinal name = (stickLetter name).bind fun result =>
      (find cardinals result.2).map (.cardinal result.1) := by
  unfold findCardinal
  rcases stickLetter name with - | ⟨stick, rest⟩
  · rfl
  · show (find cardinals rest).bind _ = (find cardinals rest).map _
    cases find cardinals rest <;> rfl

theorem findCardinal_eq_find (name : Text) :
    findCardinal name =
      (find (stickEntries .left) name).or (find (stickEntries .right) name) := by
  cases name with
  | nil => rfl
  | cons c rest =>
    have hleft : 'L'.toLower = c.toLower ↔ c = 'L' ∨ c = 'l' :=
      eq_comm.trans (Text.toLower_eq_letter_iff 'l' 'L' (by decide) (by decide) c)
    have hright : 'R'.toLower = c.toLower ↔ c = 'R' ∨ c = 'r' :=
      eq_comm.trans (Text.toLower_eq_letter_iff 'r' 'R' (by decide) (by decide) c)
    unfold stickEntries
    rw [find_lettered, find_lettered]
    simp only [findCardinal_eq_bind, stickLetter, Stick.capital, hleft, hright]
    split
    · rename_i hc
      -- no letter names both sticks
      have hc' : ¬ (c = 'R' ∨ c = 'r') := by
        rcases hc with rfl | rfl <;> decide
      rw [if_neg hc', Option.or_none]
      rfl
    · split <;> rfl

theorem lookup_eq_find_entries (name : Text) : lookup name = find entries name := by
  unfold lookup entries
  rw [find_append, find_append, find_append, find_map, find_map, Option.or_assoc,
    ← findCardinal_eq_find]
  cases find buttons name with
  | some bit => rfl
  | none => cases find directions name <;> rfl

theorem lookup_eq_some_iff {name : Text} {symbol : Symbol} :
    lookup name = some symbol ↔ (Text.upper name, symbol) ∈ entries := by
  rw [lookup_eq_find_entries, isTable_entries.find_eq_some_iff]

/-- The name stands in the table of one kind of inputs, and the symbol is its entry there. -/
inductive Denotes : Text → Symbol → Prop
  | button {name : Text} {bit : Nat} : (name, bit) ∈ buttons → Denotes name (.button bit)
  | direction {name : Text} {d : Direction} : (name, d) ∈ directions → Denotes name (.direction d)
  | cardinal {name : Text} {position : StickPosition} (stick : Stick) :
      (name, position) ∈ cardinals →
        Denotes (stick.capital :: name) (.cardinal stick position)

theorem denotes_iff {name : Text} {symbol : Symbol} :
    Denotes name symbol ↔ (name, symbol) ∈ entries := by
  unfold entries stickEntries
  simp only [List.mem_append, List.mem_map, Prod.mk.injEq]
  constructor
  · rintro (h | h | ⟨stick, h⟩)
    · exact .inl (.inl (.inl ⟨_, h, rfl, rfl⟩))
    · exact .inl (.inl (.inr ⟨_, h, rfl, rfl⟩))
    · cases stick
      · exact .inl (.inr ⟨_, h, rfl, rfl⟩)
      · exact .inr ⟨_, h, rfl, rfl⟩
  · rintro (((⟨entry, h, rfl, rfl⟩ | ⟨entry, h, rfl, rfl⟩) | ⟨entry, h, rfl, rfl⟩) |
      ⟨entry, h, rfl, rfl⟩)
    · exact .button h
    · exact .direction h
    · exact .cardinal .left h
    · exact .cardinal .right h

theorem mem_allNames_iff {name : Text} : name ∈ allNames ↔ ∃ symbol, (name, symbol) ∈ entries := by
  rw [← map_fst_entries]
  simp

theorem nodup_allNames : allNames.Nodup := isTable_entries.nodup

end Symbol

/-! ## Names are nothing else -/

theorem Token.classify_of_lookup {token : Text} {symbol : Symbol}
    (h : Symbol.lookup token = some symbol) : Token.classify token = .ok (.symbol symbol) := by
  have hall : ∀ name ∈ Symbol.allNames, '(' ∉ name := by decide
  have hname := Symbol.mem_allNames_iff.mpr ⟨symbol, Symbol.lookup_eq_some_iff.mp h⟩
  have hnone : Token.coordinate? token = none := by
    refine Option.eq_none_iff_forall_ne_some.mpr ?_
    rintro ⟨stick, x, y⟩ hsome
    obtain ⟨a, b, ⟨letter, -, gap, -, rfl⟩, -⟩ := Token.coordinate?_eq_some_iff.mp hsome
    refine hall _ hname (List.mem_map.mpr ⟨'(', ?_, rfl⟩)
    simp
  rw [Token.classify_of_not_coordinate hnone, h]
  rfl

namespace Symbol

/-- **The table answers to its names only.** A text is looked up with success exactly if its
capitals are one of all names. That name stands there once, and the symbol is its entry in the
table of one kind of inputs. No such text is a word for a controller at rest, and it is read as the
symbol, so never as coordinates, in range or not. -/
theorem lookup_iff_mem_allNames (text : Text) :
    ((lookup text).isSome = true ↔ Text.upper text ∈ allNames) ∧
    (∀ symbol, lookup text = some symbol ↔ Denotes (Text.upper text) symbol) ∧
    ∀ symbol, lookup text = some symbol →
      allNames.count (Text.upper text) = 1 ∧ isRestWord text = false ∧
        Token.classify text = .ok (.symbol symbol) := by
  refine ⟨?_, fun symbol => ?_, fun symbol h => ⟨?_, ?_, Token.classify_of_lookup h⟩⟩
  · rw [Option.isSome_iff_exists, mem_allNames_iff]
    exact exists_congr fun symbol => lookup_eq_some_iff
  · rw [lookup_eq_some_iff, denotes_iff]
  · have hmem := mem_allNames_iff.mpr ⟨symbol, lookup_eq_some_iff.mp h⟩
    exact List.count_eq_one_of_mem nodup_allNames hmem
  · by_contra hrest
    rw [lookup_restWord (eq_true_of_ne_false hrest)] at h
    cases h

/-- Three names that start alike, one in each table, and a text that ends in a long s, which is no
ASCII letter. -/
theorem lookup_iff_mem_allNames_alike :
    lookup "l".toList = some (.button 4) ∧
      lookup "Left".toList = some (.direction .left) ∧
      lookup "lLeft".toList = some (.cardinal .left ⟨0, 128⟩) ∧
      allNames.count "LLEFT".toList = 1 ∧ isRestWord "lLeft".toList = false ∧
      Token.classify "lLeft".toList = .ok (.symbol (.cardinal .left ⟨0, 128⟩)) ∧
      (lookup "plu\u017f".toList).isSome = false := by
  have hbutton : Denotes (Text.upper "l".toList) (.button 4) := .button (by decide)
  have hdirection : Denotes (Text.upper "Left".toList) (.direction .left) := .direction (by decide)
  have hcardinal : Denotes (Text.upper "lLeft".toList) (.cardinal .left ⟨0, 128⟩) :=
    .cardinal .left (by decide)
  have hlookup := ((lookup_iff_mem_allNames "lLeft".toList).2.1 _).mpr hcardinal
  obtain ⟨hcount, hrest, hclassify⟩ := (lookup_iff_mem_allNames _).2.2 _ hlookup
  refine ⟨((lookup_iff_mem_allNames _).2.1 _).mpr hbutton,
    ((lookup_iff_mem_allNames _).2.1 _).mpr hdirection, hlookup, hcount, hrest, hclassify, ?_⟩
  rw [Bool.eq_false_iff, ne_eq, (lookup_iff_mem_allNames _).1]
  decide

end Symbol

end PadScript
