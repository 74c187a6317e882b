import LowDimLP.Json.Printer
import LowDimLP.Proofs.Json.Numbers
import LowDimLP.Proofs.Json.Strings
/-!
# Written documents

A value is well written when its numbers are tokens and its strings and keys stand for texts. The reader takes
such a value back from the text it is written as, whatever follows it (`WellWritten.value?_write`): by
induction on the value, where the length of a text bounds the steps that reading it takes. So a document holds
the value that it was made from (`WellWritten.parse?_pretty`).
-/

namespace LowDimLP.Json

/-- Every number is a token, and every string and key stands for a text. -/
inductive WellWritten : Json → Prop where
  | null : WellWritten .null
  | bool (b : Bool) : WellWritten (.bool b)
  | number {token : Bytes} (token_read : IsToken token) : WellWritten (.number token)
  | string (s : String) : WellWritten (.string (escape s))
  | array {items : List Json} (items_written : ∀ item ∈ items, WellWritten item) : WellWritten (.array items)
  | object {members : List (Bytes × Json)} (keys : ∀ member ∈ members, ∃ name, member.1 = escape name)
      (values : ∀ member ∈ members, WellWritten member.2) : WellWritten (.object members)

/-! ## Blanks -/

theorem skipBlanks_cons {b : UInt8} (s : Bytes) (dark : isBlank b = false) : skipBlanks (b :: s) = b :: s := by
  simp [skipBlanks, dark]

@[simp] theorem skipBlanks_newline (depth : Nat) (s : Bytes) : skipBlanks (newline depth ++ s) = skipBlanks s := by
  have blank : ∀ b ∈ newline depth, isBlank b = true := by
    intro b hb
    rcases List.mem_cons.mp hb with rfl | hb
    · rfl
    · rw [(List.mem_replicate.mp hb).2]
      rfl
  rw [skipBlanks, skipBlanks, List.dropWhile_append_of_pos blank]

theorem skipBlanks_idem (s : Bytes) : skipBlanks (skipBlanks s) = skipBlanks s := by
  induction s with
  | nil => rfl
  | cons b s ih =>
    cases blank : isBlank b with
    | true => simpa [skipBlanks, blank] using ih
    | false => rw [skipBlanks_cons s blank, skipBlanks_cons s blank]

/-- The reader skips blanks in front of a value. -/
theorem value?_skipBlanks (fuel : Nat) (s : Bytes) : value? fuel (skipBlanks s) = value? fuel s := by
  cases fuel with
  | zero => simp [value?]
  | succ fuel => rw [value?, value?, skipBlanks_idem]

theorem itemList?_skipBlanks (fuel : Nat) (s : Bytes) : itemList? fuel (skipBlanks s) = itemList? fuel s := by
  cases fuel with
  | zero => simp [itemList?]
  | succ fuel => rw [itemList?, itemList?, value?_skipBlanks]

theorem memberList?_skipBlanks (fuel : Nat) (s : Bytes) :
    memberList? fuel (skipBlanks s) = memberList? fuel s := by
  cases fuel with
  | zero => simp [memberList?]
  | succ fuel => rw [memberList?, memberList?, skipBlanks_idem]

/-! ## First bytes -/

/-- The byte may start a number. -/
def StartsNumber (b : UInt8) : Prop := b = byte '-' ∨ isDigitByte b = true

theorem StartsNumber.ne {b c : UInt8} (start : StartsNumber b) (hyphen : c ≠ byte '-')
    (digit : isDigitByte c = false) : b ≠ c := by
  rintro rfl
  rcases start with start | start
  · exact hyphen start
  · rw [digit] at start
    cases start

theorem StartsNumber.not_blank {b : UInt8} (start : StartsNumber b) : isBlank b = false := by
  have space : b ≠ byte ' ' := start.ne (by decide) (by decide)
  have feed : b ≠ byte '\n' := start.ne (by decide) (by decide)
  have carriage : b ≠ byte '\r' := start.ne (by decide) (by decide)
  have tab : b ≠ byte '\t' := start.ne (by decide) (by decide)
  simp [isBlank, space, feed, carriage, tab]

/-- A written value starts with a byte that is no blank and closes no array. -/
theorem WellWritten.head {v : Json} (written : WellWritten v) (depth : Nat) :
    ∃ b t, write depth v = b :: t ∧ isBlank b = false ∧ b ≠ byte ']' := by
  cases written with
  | null => exact ⟨_, _, rfl, by decide, by decide⟩
  | bool b => cases b <;> exact ⟨_, _, rfl, by decide, by decide⟩
  | number token_read =>
    obtain ⟨b, t, rfl, start⟩ := token_read.head
    have start : StartsNumber b := start
    exact ⟨b, t, rfl, start.not_blank, start.ne (by decide) (by decide)⟩
  | string s => exact ⟨_, _, rfl, by decide, by decide⟩
  | @array items =>
    cases items with
    | nil => exact ⟨_, _, rfl, by decide, by decide⟩
    | cons item items => exact ⟨_, _, rfl, by decide, by decide⟩
  | @object members =>
    cases members with
    | nil => exact ⟨_, _, rfl, by decide, by decide⟩
    | cons member members => exact ⟨_, _, rfl, by decide, by decide⟩

/-! ## Reading what is written -/

/-- With as many steps as the text has bytes, the reader takes the value back from its text. -/
def ReadsBack (v : Json) : Prop :=
  ∀ (fuel depth : Nat) (rest : Bytes), EndsNumber rest → (write depth v).length ≤ fuel →
    value? fuel (write depth v ++ rest) = some (v, rest)

theorem IsToken.readsBack {token : Bytes} (token_read : IsToken token) : ReadsBack (.number token) := by
  intro fuel depth rest ends bound
  obtain ⟨b, t, rfl, start⟩ := token_read.head
  have start : StartsNumber b := start
  cases fuel with
  | zero => cases bound
  | succ fuel =>
    have split := token_read.number?_append ends
    have shown : write depth (.number (b :: t)) ++ rest = b :: (t ++ rest) := rfl
    have quote : b ≠ byte '"' := start.ne (by decide) (by decide)
    have bracket : b ≠ byte '[' := start.ne (by decide) (by decide)
    have brace : b ≠ byte '\x7b' := start.ne (by decide) (by decide)
    have n : b ≠ byte 'n' := start.ne (by decide) (by decide)
    have t : b ≠ byte 't' := start.ne (by decide) (by decide)
    have f : b ≠ byte 'f' := start.ne (by decide) (by decide)
    rw [List.cons_append] at split
    rw [shown, value?, skipBlanks_cons _ start.not_blank]
    simp only [quote, bracket, brace, n, t, f, if_false, split, Option.map_some]

theorem readsBack_string (s : String) : ReadsBack (.string (escape s)) := by
  intro fuel depth rest _ bound
  cases fuel with
  | zero => cases bound
  | succ fuel =>
    have shown : write depth (.string (escape s)) ++ rest = byte '"' :: (escape s ++ byte '"' :: rest) := by
      simp [write]
    rw [shown, value?, skipBlanks_cons _ (by decide)]
    simp only [if_true, stringBody?_escape, Option.map_some]

/-- What stands behind a value in an array or object ends a number. -/
theorem endsNumber_newline (depth : Nat) (s : Bytes) : EndsNumber (newline depth ++ s) :=
  endsNumber_cons _ (by decide) (by decide) (by decide) (by decide)

theorem endsNumber_comma (s : Bytes) : EndsNumber (byte ',' :: s) :=
  endsNumber_cons _ (by decide) (by decide) (by decide) (by decide)

section Steps

variable {fuel : Nat} {s t u rest : Bytes}

theorem itemList?_last {item : Json} (first : value? fuel s = some (item, t))
    (close : skipBlanks t = byte ']' :: rest) : itemList? (fuel + 1) s = some ([item], rest) := by
  rw [itemList?, first, Option.bind_eq_bind, Option.bind_some]
  dsimp only
  rw [close]
  rfl

theorem itemList?_next {item : Json} {items : List Json} (first : value? fuel s = some (item, t))
    (comma : skipBlanks t = byte ',' :: u) (others : itemList? fuel u = some (items, rest)) :
    itemList? (fuel + 1) s = some (item :: items, rest) := by
  rw [itemList?, first, Option.bind_eq_bind, Option.bind_some]
  dsimp only
  rw [comma]
  show ((itemList? fuel u).bind fun split => some (item :: split.1, split.2)) = _
  rw [others]
  rfl

end Steps

theorem itemList?_write {item : Json} {items : List Json} (reads : ∀ i ∈ item :: items, ReadsBack i)
    (fuel depth below : Nat) (rest : Bytes)
    (bound : (write depth item).length + (writeItems depth items).length + 1 ≤ fuel) :
    itemList? fuel (write depth item ++ (writeItems depth items ++ (newline below ++ byte ']' :: rest))) =
      some (item :: items, rest) := by
  induction items generalizing item fuel with
  | nil =>
    cases fuel with
    | zero => omega
    | succ fuel =>
      have first := reads item List.mem_cons_self fuel depth (newline below ++ byte ']' :: rest)
        (endsNumber_newline _ _) (by rw [writeItems, List.length_nil] at bound; omega)
      refine itemList?_last first ?_
      rw [skipBlanks_newline, skipBlanks_cons _ (by decide)]
  | cons next items ih =>
    cases fuel with
    | zero => omega
    | succ fuel =>
      simp only [writeItems, List.length_cons, List.length_append] at bound
      have first := reads item List.mem_cons_self fuel depth
        (writeItems depth (next :: items) ++ (newline below ++ byte ']' :: rest)) (endsNumber_comma _) (by omega)
      have comma : skipBlanks (writeItems depth (next :: items) ++ (newline below ++ byte ']' :: rest)) =
          byte ',' :: (newline depth ++
            (write depth next ++ (writeItems depth items ++ (newline below ++ byte ']' :: rest)))) := by
        rw [writeItems, List.cons_append, skipBlanks_cons _ (by decide), List.append_assoc, List.append_assoc]
      refine itemList?_next first comma ?_
      rw [← itemList?_skipBlanks, skipBlanks_newline, itemList?_skipBlanks]
      exact ih (fun i hi => reads i (List.mem_cons_of_mem _ hi)) fuel (by omega)

section Steps

variable {fuel : Nat} {s t u v w rest key : Bytes} {value : Json}

theorem memberList?_last (quote : skipBlanks s = byte '"' :: t) (split : stringBody? t = some (key, u))
    (colon : skipBlanks u = byte ':' :: v) (first : value? fuel v = some (value, w))
    (close : skipBlanks w = byte '\x7d' :: rest) :
    memberList? (fuel + 1) s = some ([(key, value)], rest) := by
  simp only [memberList?, quote, if_true, split, Option.bind_eq_bind, Option.bind_some, colon, first, close]
  rfl

theorem memberList?_next {members : List (Bytes × Json)} (quote : skipBlanks s = byte '"' :: t)
    (split : stringBody? t = some (key, u)) (colon : skipBlanks u = byte ':' :: v)
    (first : value? fuel v = some (value, w)) (comma : skipBlanks w = byte ',' :: s')
    (others : memberList? fuel s' = some (members, rest)) :
    memberList? (fuel + 1) s = some ((key, value) :: members, rest) := by
  simp only [memberList?, quote, if_true, split, Option.bind_eq_bind, Option.bind_some, colon, first, comma, others]
  rfl

end Steps

/-- A written key with its colon, up to the value. -/
theorem skipBlanks_writeKey (key s : Bytes) :
    skipBlanks (writeKey key ++ s) = byte '"' :: (key ++ byte '"' :: byte ':' :: byte ' ' :: s) := by
  rw [writeKey, List.cons_append, skipBlanks_cons _ (by decide), List.append_assoc]
  rfl

theorem value?_space (fuel : Nat) (s : Bytes) : value? fuel (byte ' ' :: s) = value? fuel s := by
  rw [← value?_skipBlanks, ← value?_skipBlanks fuel s]
  rfl

theorem memberList?_write {key : Bytes} {value : Json} {members : List (Bytes × Json)}
    (keys : ∀ member ∈ (key, value) :: members, ∃ name, member.1 = escape name)
    (reads : ∀ member ∈ (key, value) :: members, ReadsBack member.2) (fuel depth below : Nat) (rest : Bytes)
    (bound : (write depth value).length + (writeMembers depth members).length + 1 ≤ fuel) :
    memberList? fuel (writeKey key ++
      (write depth value ++ (writeMembers depth members ++ (newline below ++ byte '\x7d' :: rest)))) =
        some ((key, value) :: members, rest) := by
  induction members generalizing key value fuel with
  | nil =>
    cases fuel with
    | zero => omega
    | succ fuel =>
      obtain ⟨name, rfl⟩ := keys (key, value) List.mem_cons_self
      have value_reads : ReadsBack value := reads _ List.mem_cons_self
      have first := value_reads fuel depth (newline below ++ byte '\x7d' :: rest)
        (endsNumber_newline _ _) (by rw [writeMembers, List.length_nil] at bound; omega)
      refine memberList?_last (skipBlanks_writeKey _ _) (stringBody?_escape name _)
        (skipBlanks_cons _ (by decide)) ((value?_space _ _).trans first) ?_
      rw [skipBlanks_newline, skipBlanks_cons _ (by decide)]
  | cons next members ih =>
    cases fuel with
    | zero => omega
    | succ fuel =>
      obtain ⟨name, rfl⟩ := keys (key, value) List.mem_cons_self
      obtain ⟨nextKey, nextValue⟩ := next
      simp only [writeMembers, List.length_cons, List.length_append] at bound
      have value_reads : ReadsBack value := reads _ List.mem_cons_self
      have first := value_reads fuel depth
        (writeMembers depth ((nextKey, nextValue) :: members) ++ (newline below ++ byte '\x7d' :: rest))
        (endsNumber_comma _) (by omega)
      have comma : skipBlanks (writeMembers depth ((nextKey, nextValue) :: members) ++
            (newline below ++ byte '\x7d' :: rest)) =
          byte ',' :: (newline depth ++ (writeKey nextKey ++ (write depth nextValue ++
            (writeMembers depth members ++ (newline below ++ byte '\x7d' :: rest))))) := by
        rw [writeMembers, List.cons_append, skipBlanks_cons _ (by decide), List.append_assoc, List.append_assoc,
          List.append_assoc]
      refine memberList?_next (skipBlanks_writeKey _ _) (stringBody?_escape name _)
        (skipBlanks_cons _ (by decide)) ((value?_space _ _).trans first) comma ?_
      rw [← memberList?_skipBlanks, skipBlanks_newline, memberList?_skipBlanks]
      exact ih (fun m hm => keys m (List.mem_cons_of_mem _ hm)) (fun m hm => reads m (List.mem_cons_of_mem _ hm))
        fuel (by omega)

section Steps

variable {fuel : Nat} {b : UInt8} {s t rest : Bytes}

theorem value?_array {items : List Json} (inside : skipBlanks s = b :: t) (some_item : b ≠ byte ']')
    (read : itemList? fuel (b :: t) = some (items, rest)) :
    value? (fuel + 1) (byte '[' :: s) = some (.array items, rest) := by
  have other : byte '[' ≠ byte '"' := by decide
  rw [value?, skipBlanks_cons _ (by decide)]
  simp only [other, if_false, if_true, inside, some_item, read, Option.map_some]

theorem value?_object {members : List (Bytes × Json)} (inside : skipBlanks s = b :: t)
    (some_member : b ≠ byte '\x7d') (read : memberList? fuel (b :: t) = some (members, rest)) :
    value? (fuel + 1) (byte '\x7b' :: s) = some (.object members, rest) := by
  have quote : byte '\x7b' ≠ byte '"' := by decide
  have bracket : byte '\x7b' ≠ byte '[' := by decide
  rw [value?, skipBlanks_cons _ (by decide)]
  simp only [quote, bracket, if_false, if_true, inside, some_member, read, Option.map_some]

end Steps

theorem readsBack_array {items : List Json} (written : ∀ item ∈ items, WellWritten item)
    (reads : ∀ item ∈ items, ReadsBack item) : ReadsBack (.array items) := by
  intro fuel depth rest _ bound
  cases fuel with
  | zero => cases items <;> cases bound
  | succ fuel =>
    cases items with
    | nil => rfl
    | cons item items =>
      simp only [write, List.length_cons, List.length_append] at bound
      have inside := itemList?_write reads fuel (depth + 1) depth rest (by omega)
      obtain ⟨b, t, start, dark, some_item⟩ := (written item List.mem_cons_self).head (depth + 1)
      have shown : write depth (.array (item :: items)) ++ rest = byte '[' :: (newline (depth + 1) ++
          (write (depth + 1) item ++ (writeItems (depth + 1) items ++ (newline depth ++ byte ']' :: rest)))) := by
        simp [write]
      rw [start, List.cons_append] at inside
      rw [shown, start]
      exact value?_array ((skipBlanks_newline _ _).trans (skipBlanks_cons _ dark)) some_item inside

theorem readsBack_object {members : List (Bytes × Json)}
    (keys : ∀ member ∈ members, ∃ name, member.1 = escape name)
    (reads : ∀ member ∈ members, ReadsBack member.2) : ReadsBack (.object members) := by
  intro fuel depth rest _ bound
  cases fuel with
  | zero => cases members <;> cases bound
  | succ fuel =>
    cases members with
    | nil => rfl
    | cons member members =>
      obtain ⟨key, value⟩ := member
      simp only [write, List.length_cons, List.length_append] at bound
      have inside := memberList?_write keys reads fuel (depth + 1) depth rest (by omega)
      have shown : write depth (.object ((key, value) :: members)) ++ rest =
          byte '\x7b' :: (newline (depth + 1) ++ (writeKey key ++ (write (depth + 1) value ++
            (writeMembers (depth + 1) members ++ (newline depth ++ byte '\x7d' :: rest))))) := by
        simp [write]
      rw [writeKey, List.cons_append] at inside
      rw [shown, writeKey, List.cons_append]
      exact value?_object ((skipBlanks_newline _ _).trans (skipBlanks_cons _ (by decide))) (by decide) inside

/-- The reader takes every well-written value back from its text, by induction on the value. -/
theorem WellWritten.value?_write {v : Json} (written : WellWritten v) : ReadsBack v := by
  induction written with
  | null =>
    intro fuel depth rest _ bound
    cases fuel with
    | zero => cases bound
    | succ fuel => rfl
  | bool b =>
    intro fuel depth rest _ bound
    cases fuel with
    | zero => cases b <;> cases bound
    | succ fuel => cases b <;> rfl
  | number token_read => exact token_read.readsBack
  | string s => exact readsBack_string s
  | array items_written reads => exact readsBack_array items_written reads
  | object keys _ reads => exact readsBack_object keys reads

/-- A document holds the value it was made from. -/
theorem WellWritten.parse?_pretty {v : Json} (written : WellWritten v) : parse? (pretty v) = some v := by
  have read := written.value?_write (2 * (pretty v).length + 2) 0 [] endsNumber_nil
    (show (pretty v).length ≤ _ by omega)
  rw [List.append_nil] at read
  rw [parse?]
  exact Option.bind_eq_some_iff.mpr ⟨(v, []), read, rfl⟩

end LowDimLP.Json
