import PadScript.Json.Record
import PadScript.Proofs.Json.Layout

/-!
# Records, written and read

A record in object form is taken from its two members in either order. The members are read one by
one, each into its place (`recordMembers_time`, `recordMembers_payload`), and the record is complete
when both places are filled.
-/

namespace PadScript.Json

variable {α : Type} {type : RecordType} {payload : Reader α}

theorem takes_millis (time : Millis) : Takes millis [.natural time.toNat] time := by
  have h := (takes_unsigned time.toNat_lt_size (by decide) "u32".toList).map UInt32.ofNat
  rw [UInt32.ofNat_toNat] at h
  exact h

/-- The keys of a record type can be written as they are and told apart. -/
structure RecordType.Keyed (type : RecordType) : Prop where
  time : Plain type.timeKey
  payload : Plain type.payloadKey
  ne : type.payloadKey ≠ type.timeKey

/-- The words of a member. -/
def memberWords (key : Text) (value : List Word) : List Word := .string key :: .colon :: value

/-- The key and the colon of a member are read. -/
theorem member_laid {key : Text} (hkey : Plain key) {isFirst : Bool} {value more : List Word}
    {text : Text} (h : Laid (lead isFirst ++ (memberWords key value ++ more)) text) :
    ∃ start middle rest, nextKey isFirst (Utf8.encode text) = .ok (some start) ∧
      string start = .ok (key, middle) ∧ colon middle = .ok ((), Utf8.encode rest) ∧
      Laid (value ++ more) rest := by
  obtain ⟨start, middle, hnext, hstring, hmiddle⟩ := nextKey_string hkey h
  obtain ⟨rest, hrest, hcolon⟩ := colon_laid hmiddle
  exact ⟨start, _, rest, hnext, hstring, hcolon, hrest⟩

theorem recordMembers_time (hkeys : type.Keyed) {fuel : Nat} {isFirst : Bool}
    {payload? : Option α} {time : Millis} {more : List Word} {text : Text} (hmark : MarkNext more)
    (h : Laid (lead isFirst ++ (memberWords type.timeKey [.natural time.toNat] ++ more)) text) :
    ∃ rest, Laid more rest ∧
      recordMembers type payload (fuel + 1) isFirst none payload? (Utf8.encode text) =
        recordMembers type payload fuel false (some time) payload? (Utf8.encode rest) := by
  obtain ⟨start, middle, inner, hnext, hstring, hcolon, hinner⟩ := member_laid hkeys.time h
  obtain ⟨rest, hrest, hread⟩ := (takes_millis time).takes _ _ hmark hinner
  refine ⟨rest, hrest, ?_⟩
  rw [recordMembers, hnext]
  show (string start >>= _) = _
  rw [hstring]
  show (if type.timeKey = type.timeKey then _ else _) = _
  rw [if_pos rfl]
  show (colon middle >>= _) = _
  rw [hcolon]
  show (millis (Utf8.encode inner) >>= _) = _
  rw [hread]
  rfl

theorem recordMembers_payload (hkeys : type.Keyed) {fuel : Nat} {isFirst : Bool}
    {time? : Option Millis} {words : List Word} {a : α} (ha : Takes payload words a)
    {more : List Word} {text : Text} (hmark : MarkNext more)
    (h : Laid (lead isFirst ++ (memberWords type.payloadKey words ++ more)) text) :
    ∃ rest, Laid more rest ∧
      recordMembers type payload (fuel + 1) isFirst time? none (Utf8.encode text) =
        recordMembers type payload fuel false time? (some a) (Utf8.encode rest) := by
  obtain ⟨start, middle, inner, hnext, hstring, hcolon, hinner⟩ := member_laid hkeys.payload h
  obtain ⟨rest, hrest, hread⟩ := ha.takes _ _ hmark hinner
  refine ⟨rest, hrest, ?_⟩
  rw [recordMembers.eq_def]
  simp only
  rw [hnext]
  show (string start >>= _) = _
  rw [hstring]
  show (if type.payloadKey = type.timeKey then _ else _) = _
  rw [if_neg hkeys.ne, if_pos rfl]
  show (colon middle >>= _) = _
  rw [hcolon]
  show (payload (Utf8.encode inner) >>= _) = _
  rw [hread]
  rfl

theorem recordMembers_closing {fuel : Nat} {isFirst : Bool} {time : Millis} {a : α}
    {more : List Word} {text : Text} (h : Laid (.closing .object :: more) text) :
    recordMembers type payload (fuel + 1) isFirst (some time) (some a) (Utf8.encode text) =
      .ok ((time, a), Utf8.encode text) := by
  rw [recordMembers, nextKey_closing isFirst h]
  rfl

/-- The members of a record, in one order or the other. -/
def memberList (type : RecordType) (payloadFirst : Bool) (time : Millis)
    (payload : List Word) : List Word :=
  match payloadFirst with
  | false => separated true
      [memberWords type.timeKey [.natural time.toNat], memberWords type.payloadKey payload]
  | true => separated true
      [memberWords type.payloadKey payload, memberWords type.timeKey [.natural time.toNat]]

/-- The words of a record in object form. -/
def recordWords (type : RecordType) (payloadFirst : Bool) (time : Millis)
    (payload : List Word) : List Word :=
  .opening .object :: (memberList type payloadFirst time payload ++ [.closing .object])

/-- The members of a record, in either order, fill both of its places. -/
theorem recordMembers_laid (hkeys : type.Keyed) (payloadFirst : Bool) {time : Millis}
    {words : List Word} {a : α} (ha : Takes payload words a) {fuel : Nat} {more : List Word}
    {text : Text}
    (h : Laid (memberList type payloadFirst time words ++ .closing .object :: more) text) :
    ∃ rest, Laid (.closing .object :: more) rest ∧
      recordMembers type payload (fuel + 3) true none none (Utf8.encode text) =
        .ok ((time, a), Utf8.encode rest) := by
  have hmark := markNext_closing .object more
  cases payloadFirst with
  | false =>
    rw [memberList, separated, List.append_assoc, List.append_assoc] at h
    obtain ⟨middle, hmiddle, hfirst⟩ := recordMembers_time hkeys (markNext_separated _ hmark) h
    rw [separated, List.append_assoc, List.append_assoc] at hmiddle
    obtain ⟨rest, hrest, hsecond⟩ := recordMembers_payload hkeys ha hmark hmiddle
    exact ⟨rest, hrest, by rw [hfirst, hsecond, recordMembers_closing hrest]⟩
  | true =>
    rw [memberList, separated, List.append_assoc, List.append_assoc] at h
    obtain ⟨middle, hmiddle, hfirst⟩ :=
      recordMembers_payload hkeys ha (markNext_separated _ hmark) h
    rw [separated, List.append_assoc, List.append_assoc] at hmiddle
    obtain ⟨rest, hrest, hsecond⟩ := recordMembers_time hkeys hmark hmiddle
    exact ⟨rest, hrest, by rw [hfirst, hsecond, recordMembers_closing hrest]⟩

theorem takes_record (hkeys : type.Keyed) (payloadFirst : Bool) (time : Millis)
    {words : List Word} {a : α} (ha : Takes payload words a) :
    Takes (record type payload) (recordWords type payloadFirst time words) (time, a) where
  opens := ⟨_, _, rfl, rfl⟩
  takes more text _ hlaid := by
    rw [recordWords, List.cons_append, List.append_assoc] at hlaid
    obtain ⟨inner, hinner, hskip⟩ := hlaid.skipSpace
    have hlength := hinner.length_le
    have hmembers : 2 ≤ (memberList type payloadFirst time words).length := by
      cases payloadFirst <;> simp [memberList, separated, lead, memberWords]
    rw [List.length_append] at hlength
    obtain ⟨fuel, hfuel⟩ : ∃ fuel, (Utf8.encode inner).length + 1 = fuel + 3 :=
      Nat.exists_eq_add_of_le' (by omega)
    obtain ⟨middle, hmiddle, hread⟩ := recordMembers_laid hkeys payloadFirst ha hinner
    obtain ⟨rest, hrest, henclose⟩ := Bracket.enclose_laid hread hmiddle
    refine ⟨rest, hrest, ?_⟩
    unfold record
    rw [hskip]
    show Bracket.object.enclose (recordMembers type payload
      ((Utf8.encode inner).length + 1) true none none) (Utf8.encode inner) = _
    rw [hfuel, henclose]

end PadScript.Json
