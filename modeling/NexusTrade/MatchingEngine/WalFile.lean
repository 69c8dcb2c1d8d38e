import NexusTrade.Lib.Nesting
import NexusTrade.Lib.Utf8
import NexusTrade.MatchingEngine.Concurrent

/-!
# The bytes of the log

`append_wal` and `replay_wal` of `services/matching-engine/src/lib.rs` on the bytes of the file.  An append writes the
JSON of its record and a newline, or fails and leaves some of these bytes; the reader takes the file line by line, stops
at a line that is no text, and skips one that is no record.

* **`appendWal`** and **`replayFile`** are the two functions, over a **`WalCodec`** for the JSON;
* **`Survives`** says that the reader finds the records of the appends that returned `Ok`;
* **`Framed`** is the condition on the appends, read off what each leaves behind: nothing after the last newline, one
  whole record, or something else;
* **`framing_survives`** says that the first follows from the second, and the second from the first where no record is
  both acknowledged and refused.
-/

namespace NexusTrade.MatchingEngine

open Utf8 (Bytes encode decode)

/-! ### Writing -/

/-- `serde_json` on the records of the log: `to_vec` is the UTF-8 of the text, and `from_str` reads one. -/
structure WalCodec where
  toText : WalRecord → List Char
  fromText : List Char → Option WalRecord

/-- A text that is read is one JSON object or array. -/
def WalCodec.Strict (wal : WalCodec) : Prop :=
  ∀ text record, wal.fromText text = some record → Nesting.Complete text

/-- **A record is written and read back**, on one line, as an object with the tag of its kind first. -/
structure WalCodec.Writes (wal : WalCodec) (record : WalRecord) : Prop where
  readsBack : wal.fromText (wal.toText record) = some record
  tagged : ∃ body, wal.toText record = '\x7b' :: ("\"type\":".toList ++ body) ++ ['\x7d']
  single : '\n' ∉ wal.toText record

/-- How an append ends; one that fails has written some bytes. -/
inductive Written
  | ok
  | failed (bytes : ℕ)
  deriving DecidableEq

/-- A call of `append_wal`. -/
structure Append where
  request : Request
  written : Written
  deriving DecidableEq

def newline : UInt8 := 10

variable (codec : DecimalCodec) (wal : WalCodec)

/-- `serde_json::to_vec` of the record of a call. -/
def payload (request : Request) : Bytes := encode (wal.toText (request.record codec))

/-- `append_wal`: whether it returns `Ok`, and the file. -/
def appendWal (file : Bytes) (a : Append) : Bool × Bytes :=
  match a.written with
  | .ok => (true, file ++ (payload codec wal a.request ++ [newline]))
  | .failed bytes => (false, file ++ (payload codec wal a.request ++ [newline]).take bytes)

/-- The file after some appends. -/
def walFile (attempts : List Append) : Bytes := attempts.foldl (fun file a => (appendWal codec wal file a).2) []

/-- The records of the appends that returned `Ok`. -/
def acknowledged (codec : DecimalCodec) (attempts : List Append) : List WalRecord :=
  (attempts.filter fun a => a.written = .ok).map fun a => a.request.record codec

/-! ### Reading -/

/-- What `lines` removes before the newline. -/
def stripCr (line : Bytes) : Bytes := if line.getLast? = some 13 then line.dropLast else line

/-- `BufRead::lines`, with the bytes read since the last newline. -/
def lines : Bytes → Bytes → List Bytes
  | pending, [] => if pending = [] then [] else [pending]
  | pending, byte :: rest =>
    if byte = newline then stripCr pending :: lines [] rest else lines (pending ++ [byte]) rest

/-- A line is no text, or a record cannot be replayed. -/
inductive ReplayError
  | invalidData
  | load (error : LoadError)
  deriving DecidableEq

/-- The loop of `replay_wal`. -/
def replayLines : UuidSource → SortedMap String OrderBook → List Bytes →
    Except ReplayError (SortedMap String OrderBook)
  | _, books, [] => .ok books
  | uuid, books, line :: rest =>
    match decode line with
    | none => .error .invalidData
    | some text =>
      if (trim text).isEmpty then replayLines uuid books rest
      else
        match wal.fromText text with
        | none => replayLines uuid books rest
        | some record =>
          match replayRecord codec uuid.head books record with
          | .error e => .error (.load e)
          | .ok books => replayLines uuid.tail books rest

/-- `replay_wal`. -/
def replayFile (uuid : UuidSource) (books : SortedMap String OrderBook) (file : Bytes) :
    Except ReplayError (SortedMap String OrderBook) := replayLines codec wal uuid books (lines [] file)

/-- The record that is replayed for a line, unless the line is no text. -/
def lineRecord (line : Bytes) : Option (Option WalRecord) :=
  (decode line).map fun text => if (trim text).isEmpty then none else wal.fromText text

/-- **The records that are replayed**, unless a line is no text. -/
def lineRecords : List Bytes → Option (List WalRecord)
  | [] => some []
  | line :: rest => (lineRecord wal line).bind fun record =>
      (lineRecords rest).map fun records => record.toList ++ records

/-- The records that are replayed from the rest of a file, with the bytes read since the last newline. -/
def fileRecords (pending file : Bytes) : Option (List WalRecord) := lineRecords wal (lines pending file)

variable {codec wal}

/-- **Replaying lines** replays their records. -/
theorem replayLines_records : ∀ (ls : List Bytes) (records : List WalRecord), lineRecords wal ls = some records →
    ∀ uuid books, replayLines codec wal uuid books ls = (replayWal codec uuid books records).mapError .load := by
  intro ls
  induction ls with
  | nil =>
      intro records h uuid books
      cases h
      rfl
  | cons line rest ih =>
      intro records h uuid books
      obtain ⟨record, hline, hrest⟩ := Option.bind_eq_some_iff.mp h
      obtain ⟨records, hrecords, rfl⟩ := Option.map_eq_some_iff.mp hrest
      obtain ⟨text, htext, hrecord⟩ := Option.map_eq_some_iff.mp hline
      rw [replayLines, htext]
      simp only
      split_ifs at hrecord ⊢ with hblank
      · subst hrecord
        exact ih records hrecords uuid books
      · rw [hrecord]
        cases record with
        | none => exact ih records hrecords uuid books
        | some record =>
            simp only [Option.toList_some, List.singleton_append, replayWal]
            cases replayRecord codec uuid.head books record with
            | error e => rfl
            | ok middle => exact ih records hrecords uuid.tail middle

/-! ### What is claimed -/

variable (codec wal)

/-- **The log survives**: the records that are replayed are those of the appends that returned `Ok`. -/
def Survives (attempts : List Append) : Prop :=
  fileRecords wal [] (walFile codec wal attempts) = some (acknowledged codec attempts)

/-- What the file holds after its last newline: nothing, one whole record, or something else. -/
inductive Tail
  | fresh
  | whole
  | torn
  deriving DecidableEq

/-- What it holds after a failed append has left some bytes. -/
def Tail.after (tail : Tail) (length bytes : ℕ) : Tail :=
  if bytes = 0 then tail
  else if length < bytes then .fresh
  else if tail = .fresh ∧ bytes = length then .whole
  else .torn

/-- **The condition on the appends.**  An append that returns `Ok` finds nothing after the last newline.  One that
fails leaves whole characters, and its newline only behind something.  In the end there is no whole record after the
last newline. -/
def Framed : Tail → List Append → Prop
  | tail, [] => tail ≠ .whole
  | tail, ⟨_, .ok⟩ :: rest => tail = .fresh ∧ Framed .fresh rest
  | tail, ⟨request, .failed bytes⟩ :: rest =>
    (decode ((payload codec wal request).take bytes)).isSome ∧
      ((payload codec wal request).length < bytes → tail ≠ .fresh) ∧
      Framed (tail.after (payload codec wal request).length bytes) rest

instance decidableFramed : ∀ (tail : Tail) (attempts : List Append), Decidable (Framed codec wal tail attempts)
  | _, [] => inferInstanceAs (Decidable (_ ≠ _))
  | _, ⟨_, .ok⟩ :: rest =>
    have := decidableFramed .fresh rest
    inferInstanceAs (Decidable (_ ∧ _))
  | tail, ⟨request, .failed bytes⟩ :: rest =>
    have := decidableFramed (tail.after (payload codec wal request).length bytes) rest
    inferInstanceAs (Decidable (_ ∧ _ ∧ _))

/-! ### Records as bytes -/

section Records

variable {codec wal}

/-- **A record is an object.** -/
theorem WalCodec.Writes.object {record : WalRecord} (hstrict : wal.Strict) (h : wal.Writes record) :
    Nesting.Object (wal.toText record) := by
  refine ⟨hstrict _ _ h.readsBack, ?_⟩
  obtain ⟨body, hbody⟩ := h.tagged
  exact ⟨'t', "ype\":".toList ++ body, hbody, by decide, by decide, by decide, by decide⟩

/-- No byte of a record is a newline. -/
theorem WalCodec.Writes.newline_not_mem {record : WalRecord} (h : wal.Writes record) :
    newline ∉ encode (wal.toText record) := by
  intro hin
  obtain ⟨c, hc, hbyte⟩ := List.mem_flatMap.mp hin
  have hsingle := Utf8.eq_singleton_of_mem (by decide) hbyte
  have hchar : some c = some '\n' := by
    rw [← Utf8.decodeChar_append c [], hsingle]
    rfl
  exact h.single (Option.some.inj hchar ▸ hc)

/-- The first byte of a record, and the last. -/
theorem WalCodec.Writes.ends {record : WalRecord} (h : wal.Writes record) :
    (∃ rest, encode (wal.toText record) = 123 :: rest) ∧ ∃ start, encode (wal.toText record) = start ++ [125] := by
  obtain ⟨body, hbody⟩ := h.tagged
  have hlast : encode ['\x7d'] = [125] := rfl
  rw [hbody]
  constructor
  · exact ⟨_, rfl⟩
  · rw [Utf8.encode_append, hlast]
    exact ⟨_, rfl⟩

/-- A record is no blank line. -/
theorem WalCodec.Writes.not_blank {record : WalRecord} (h : wal.Writes record) :
    (trim (wal.toText record)).isEmpty = false := by
  obtain ⟨body, hbody⟩ := h.tagged
  rw [hbody, trim, List.cons_append, List.dropWhile_cons_of_neg (by decide), ← List.cons_append,
    List.rdropWhile_concat_neg _ _ _ (by decide)]
  rfl

/-- The line of a record. -/
theorem WalCodec.Writes.lineRecord {record : WalRecord} (h : wal.Writes record) :
    lineRecord wal (encode (wal.toText record)) = some (some record) := by
  rw [MatchingEngine.lineRecord, Utf8.decode_encode, Option.map_some, h.not_blank, h.readsBack]
  rfl

/-- A line that is unfinished is skipped. -/
theorem lineRecord_unfinished (hstrict : wal.Strict) {text : List Char} (h : Nesting.Unfinished text) :
    lineRecord wal (encode text) = some none := by
  rw [lineRecord, Utf8.decode_encode, Option.map_some]
  split_ifs
  · rfl
  · cases hread : wal.fromText text with
    | none => rfl
    | some record => exact absurd (hstrict text record hread) h.not_complete

end Records

/-! ### Lines -/

theorem lines_append {chunk : Bytes} (h : newline ∉ chunk) : ∀ (pending rest : Bytes),
    lines pending (chunk ++ rest) = lines (pending ++ chunk) rest := by
  induction chunk with
  | nil =>
      intro pending rest
      rw [List.append_nil, List.nil_append]
  | cons byte chunk ih =>
      intro pending rest
      rw [List.mem_cons, not_or] at h
      rw [List.cons_append, lines, if_neg (Ne.symm h.1), ih h.2, List.append_assoc, List.singleton_append]

theorem lines_newline (pending rest : Bytes) : lines pending (newline :: rest) = stripCr pending :: lines [] rest := by
  rw [lines, if_pos rfl]

theorem stripCr_concat (line : Bytes) {byte : UInt8} (h : byte ≠ 13) : stripCr (line ++ [byte]) = line ++ [byte] := by
  rw [stripCr, List.getLast?_concat, if_neg]
  simpa using h

/-- What is read since the last newline starts the next line. -/
theorem lines_pending (start : Bytes) {byte : UInt8} (hbyte : byte ≠ 13) : ∀ (rest more : Bytes),
    ∃ more' tail, lines (start ++ [byte] ++ more) rest = (start ++ [byte] ++ more') :: tail := by
  intro rest
  induction rest with
  | nil =>
      intro more
      refine ⟨more, [], ?_⟩
      rw [lines, if_neg (by simp)]
  | cons b rest ih =>
      intro more
      rw [lines]
      split_ifs
      · rw [stripCr]
        split_ifs with hcr
        · rcases List.eq_nil_or_concat more with rfl | ⟨before, last, rfl⟩
          · rw [List.append_nil, List.getLast?_concat] at hcr
            exact absurd (Option.some.inj hcr) hbyte
          · refine ⟨before, lines [] rest, ?_⟩
            rw [List.concat_eq_append, ← List.append_assoc, List.dropLast_concat]
        · exact ⟨more, _, rfl⟩
      · rw [List.append_assoc]
        exact ih (more ++ [b])

/-! ### What an append does to the lines -/

section Chunks

variable {codec wal}

/-- What an append leaves in the file. -/
def chunk (codec : DecimalCodec) (wal : WalCodec) (a : Append) : Bytes :=
  match a.written with
  | .ok => payload codec wal a.request ++ [newline]
  | .failed bytes => (payload codec wal a.request ++ [newline]).take bytes

/-- The file is what the appends leave, one after the other. -/
theorem walFile_eq (attempts : List Append) : walFile codec wal attempts = attempts.flatMap (chunk codec wal) := by
  have hfold : ∀ (attempts : List Append) (file : Bytes),
      attempts.foldl (fun file a => (appendWal codec wal file a).2) file =
        file ++ attempts.flatMap (chunk codec wal) := by
    intro attempts
    induction attempts with
    | nil =>
        intro file
        rw [List.foldl_nil, List.flatMap_nil, List.append_nil]
    | cons a attempts ih =>
        intro file
        rw [List.foldl_cons, ih, List.flatMap_cons, ← List.append_assoc]
        congr 1
        rw [appendWal, chunk]
        cases a.written <;> rfl
  exact hfold attempts []

/-- The bytes after the last newline of the file; a whole record among them is one of a failed append. -/
inductive Pending (codec : DecimalCodec) (wal : WalCodec) (refused : WalRecord → Prop) : Tail → Bytes → Prop
  | fresh : Pending codec wal refused .fresh []
  | whole (request : Request) (hwrites : wal.Writes (request.record codec)) (hrefused : refused (request.record codec)) :
    Pending codec wal refused .whole (payload codec wal request)
  | torn (text : List Char) (hunfinished : Nesting.Unfinished text) : Pending codec wal refused .torn (encode text)

variable {refused : WalRecord → Prop}

theorem Pending.text {tail : Tail} {pending : Bytes} (h : Pending codec wal refused tail pending) :
    ∃ text, pending = encode text := by
  cases h with
  | fresh => exact ⟨[], rfl⟩
  | whole request _ _ => exact ⟨_, rfl⟩
  | torn text _ => exact ⟨text, rfl⟩

/-- Only a fresh line is empty. -/
theorem Pending.eq_nil_iff {tail : Tail} {pending : Bytes} (h : Pending codec wal refused tail pending) :
    pending = [] ↔ tail = .fresh := by
  cases h with
  | fresh => simp
  | whole request hwrites _ =>
      obtain ⟨⟨rest, hfirst⟩, -⟩ := hwrites.ends
      simp [payload, hfirst]
  | torn text hunfinished =>
      cases text with
      | nil =>
          obtain ⟨depth, place, hopen⟩ := hunfinished .outside rfl
          cases hopen
      | cons c text =>
          have hpos := Utf8.length_pos c
          rw [Utf8.encode_cons]
          simp only [List.append_eq_nil_iff, reduceCtorEq, iff_false, not_and]
          intro hnil
          rw [hnil] at hpos
          cases hpos

/-- What follows something in its line makes it unfinished. -/
theorem Pending.append (hstrict : wal.Strict) {tail : Tail} {pending : Bytes} (h : Pending codec wal refused tail pending)
    (htail : tail ≠ .fresh) {request : Request} (hwrites : wal.Writes (request.record codec)) {part : List Char}
    (hpart : part <+: wal.toText (request.record codec)) (hnonempty : part ≠ []) :
    ∃ text, pending ++ encode part = encode text ∧ Nesting.Unfinished text := by
  have hobject := hwrites.object hstrict
  cases h with
  | fresh => exact absurd rfl htail
  | whole request' hwrites' _ =>
      refine ⟨wal.toText (request'.record codec) ++ part, by rw [Utf8.encode_append]; rfl, ?_⟩
      exact (hwrites'.object hstrict).append hobject hpart hnonempty
  | torn text hunfinished =>
      exact ⟨text ++ part, by rw [Utf8.encode_append], hunfinished.append hobject hpart⟩

/-- **A line that ends**: its record is read if nothing was before it. -/
theorem lines_ended (hstrict : wal.Strict) {tail : Tail} {pending : Bytes} (h : Pending codec wal refused tail pending)
    {request : Request} (hwrites : wal.Writes (request.record codec)) (rest : Bytes) :
    fileRecords wal pending (payload codec wal request ++ [newline] ++ rest) =
      (fileRecords wal [] rest).map fun records => if tail = .fresh then request.record codec :: records else records := by
  have hskip : ∀ line, lines pending (payload codec wal request ++ [newline] ++ rest) = line :: lines [] rest →
      ∀ record, lineRecord wal line = some record → fileRecords wal pending (payload codec wal request ++ [newline] ++ rest)
        = (fileRecords wal [] rest).map fun records => record.toList ++ records := by
    intro line hline record hrecord
    rw [fileRecords, hline, lineRecords, hrecord]
    rfl
  have hline : lines pending (payload codec wal request ++ [newline] ++ rest) =
      (pending ++ payload codec wal request) :: lines [] rest := by
    obtain ⟨-, start, hlast⟩ := hwrites.ends
    rw [payload, List.append_assoc, lines_append hwrites.newline_not_mem, List.singleton_append, lines_newline, hlast,
      ← List.append_assoc, stripCr_concat _ (by decide)]
  by_cases htail : tail = .fresh
  · subst htail
    cases h
    rw [hskip _ hline _ hwrites.lineRecord]
    rfl
  · obtain ⟨text, htext, hunfinished⟩ := h.append hstrict htail hwrites (List.prefix_refl _) (by
      obtain ⟨body, hbody⟩ := hwrites.tagged
      simp [hbody])
    rw [hskip _ hline none (by rw [payload, htext, lineRecord_unfinished hstrict hunfinished])]
    simp only [if_neg htail]
    rfl

/-- **A record that is cut** between two characters is left on the line. -/
theorem lines_part (hstrict : wal.Strict) {tail : Tail} {pending : Bytes} (h : Pending codec wal refused tail pending)
    {request : Request} (hwrites : wal.Writes (request.record codec)) (hrefused : refused (request.record codec))
    {bytes : ℕ} (hinside : bytes ≤ (payload codec wal request).length)
    (hdecode : (decode ((payload codec wal request).take bytes)).isSome) (rest : Bytes) :
    ∃ pending', Pending codec wal refused (tail.after (payload codec wal request).length bytes) pending' ∧
      fileRecords wal pending ((payload codec wal request ++ [newline]).take bytes ++ rest) =
        fileRecords wal pending' rest := by
  rw [List.take_append_of_le_length hinside]
  have hplain : newline ∉ (payload codec wal request).take bytes :=
    fun hin => hwrites.newline_not_mem (List.mem_of_mem_take hin)
  refine ⟨pending ++ (payload codec wal request).take bytes, ?_, by rw [fileRecords, fileRecords, lines_append hplain]⟩
  rcases Nat.eq_zero_or_pos bytes with rfl | hpos
  · rw [List.take_zero, List.append_nil, Tail.after, if_pos rfl]
    exact h
  · have hlength : ¬(payload codec wal request).length < bytes := by omega
    rw [Tail.after, if_neg (by omega), if_neg hlength]
    by_cases hwhole : tail = .fresh ∧ bytes = (payload codec wal request).length
    · obtain ⟨rfl, hall⟩ := hwhole
      cases h
      rw [if_pos ⟨rfl, hall⟩, hall, List.take_length, List.nil_append]
      exact Pending.whole request hwrites hrefused
    · rw [if_neg hwhole]
      rcases Utf8.take_encode (wal.toText (request.record codec)) bytes with ⟨part, hpart, htake⟩ | htorn
      · have hnonempty : part ≠ [] := by
          rintro rfl
          have hzero := congrArg List.length htake
          rw [List.length_take, Utf8.encode_nil, List.length_nil] at hzero
          rw [payload] at hinside
          omega
        rw [payload, htake]
        by_cases htail : tail = .fresh
        · subst htail
          cases h
          refine Pending.torn part ((hwrites.object hstrict).unfinished hpart ?_ hnonempty)
          rintro rfl
          refine hwhole ⟨rfl, ?_⟩
          have hlast := congrArg List.length htake
          rw [List.length_take] at hlast
          rw [payload] at hinside ⊢
          omega
        · obtain ⟨text, htext, hunfinished⟩ := h.append hstrict htail hwrites hpart hnonempty
          rw [htext]
          exact Pending.torn text hunfinished
      · have hnone := Utf8.decode_torn htorn (by simp : ∀ byte ∈ ([] : Bytes).head?, byte < 128)
        rw [List.append_nil] at hnone
        rw [payload, hnone] at hdecode
        cases hdecode

/-- What the appends leave starts with a bracket. -/
theorem chunks_head {attempts : List Append} (hwrites : ∀ a ∈ attempts, wal.Writes (a.request.record codec)) :
    attempts.flatMap (chunk codec wal) = [] ∨ ∃ rest, attempts.flatMap (chunk codec wal) = 123 :: rest := by
  induction attempts with
  | nil => exact Or.inl rfl
  | cons a attempts ih =>
      obtain ⟨⟨more, hfirst⟩, -⟩ := (hwrites a List.mem_cons_self).ends
      have hpayload : payload codec wal a.request = 123 :: more := hfirst
      have hrest := ih fun b hb => hwrites b (List.mem_cons_of_mem _ hb)
      rw [List.flatMap_cons, chunk, hpayload]
      cases a.written with
      | ok => exact Or.inr ⟨_, rfl⟩
      | failed bytes =>
          cases bytes with
          | zero => exact hrest
          | succ bytes => exact Or.inr ⟨_, rfl⟩

/-- **A record that is cut within a character** makes its line no text. -/
theorem lines_cut {tail : Tail} {pending : Bytes} (h : Pending codec wal refused tail pending) {request : Request}
    {bytes : ℕ} (hcut : decode ((payload codec wal request).take bytes) = none) {rest : Bytes}
    (hrest : rest = [] ∨ ∃ more, rest = 123 :: more) (hplain : newline ∉ (payload codec wal request).take bytes) :
    fileRecords wal pending ((payload codec wal request).take bytes ++ rest) = none := by
  rcases Utf8.take_encode (wal.toText (request.record codec)) bytes with ⟨part, hpart, htake⟩ | htorn
  · rw [payload, htake, Utf8.decode_encode] at hcut
    cases hcut
  · obtain ⟨text, rfl⟩ := h.text
    obtain ⟨before, broken, c, hbroken, hnonempty, hbytes⟩ := htorn
    have hline : Utf8.Torn (encode text ++ (payload codec wal request).take bytes) := by
      refine ⟨text ++ before, broken, c, ?_, hnonempty, hbytes⟩
      rw [Utf8.encode_append, List.append_assoc, ← hbroken, payload]
    have hinvalid : ∀ line tail, lines (encode text ++ (payload codec wal request).take bytes) rest = line :: tail →
        decode line = none → fileRecords wal (encode text) ((payload codec wal request).take bytes ++ rest) = none := by
      intro line tail hlines hdecode
      rw [fileRecords, lines_append hplain, hlines, lineRecords, lineRecord, hdecode]
      rfl
    rcases hrest with rfl | ⟨more, rfl⟩
    · have hnone := Utf8.decode_torn hline (by simp : ∀ byte ∈ ([] : Bytes).head?, byte < 128)
      rw [List.append_nil] at hnone
      refine hinvalid _ [] ?_ hnone
      rw [lines, if_neg]
      intro hnil
      rw [hnil] at hline
      obtain ⟨_, _, _, hempty, hpart, -⟩ := hline
      exact hpart (List.append_eq_nil_iff.mp hempty.symm).2
    · obtain ⟨more', tail, hpending⟩ := lines_pending (encode text ++ (payload codec wal request).take bytes)
        (by decide : (123 : UInt8) ≠ 13) more []
      have hlines : lines (encode text ++ (payload codec wal request).take bytes) (123 :: more) =
          (encode text ++ (payload codec wal request).take bytes ++ 123 :: more') :: tail := by
        rw [lines, if_neg (by decide), List.append_cons _ 123 more', ← hpending, List.append_nil]
      exact hinvalid _ tail hlines (Utf8.decode_torn hline (by simp))

/-- What is read at the end of the file. -/
theorem records_end (hstrict : wal.Strict) {tail : Tail} {pending : Bytes} (h : Pending codec wal refused tail pending) :
    (tail ≠ .whole ∧ fileRecords wal pending [] = some []) ∨
      ∃ record, tail = .whole ∧ refused record ∧ fileRecords wal pending [] = some [record] := by
  have hnil := h.eq_nil_iff
  rw [fileRecords, lines]
  cases h with
  | fresh => exact Or.inl ⟨by decide, rfl⟩
  | whole request hwrites hrefused =>
      refine Or.inr ⟨request.record codec, rfl, hrefused, ?_⟩
      rw [if_neg (by simp [hnil]), lineRecords, payload, hwrites.lineRecord]
      rfl
  | torn text hunfinished =>
      refine Or.inl ⟨by decide, ?_⟩
      rw [if_neg (by simp [hnil]), lineRecords, lineRecord_unfinished hstrict hunfinished]
      rfl

/-- **What an append does**: it ends its line, or leaves a part of its record on it, or makes it no text. -/
inductive Appended (codec : DecimalCodec) (wal : WalCodec) (refused : WalRecord → Prop) (tail : Tail) (pending : Bytes)
    (request : Request) (bytes : ℕ) (rest : Bytes) : Option (List WalRecord) → Prop
  | ended (hall : (payload codec wal request).length < bytes) : Appended codec wal refused tail pending request bytes rest
      ((fileRecords wal [] rest).map fun records =>
        if tail = .fresh then request.record codec :: records else records)
  | left (hinside : ¬(payload codec wal request).length < bytes)
      (hdecode : (decode ((payload codec wal request).take bytes)).isSome) (pending' : Bytes)
      (hpending : Pending codec wal refused (tail.after (payload codec wal request).length bytes) pending') :
      Appended codec wal refused tail pending request bytes rest (fileRecords wal pending' rest)
  | cut (hcut : decode ((payload codec wal request).take bytes) = none) :
      Appended codec wal refused tail pending request bytes rest none

theorem appended_of_failed (hstrict : wal.Strict) {tail : Tail} {pending : Bytes}
    (h : Pending codec wal refused tail pending) {request : Request} (hwrites : wal.Writes (request.record codec))
    (hrefused : refused (request.record codec)) (bytes : ℕ) {rest : Bytes}
    (hrest : rest = [] ∨ ∃ more, rest = 123 :: more) :
    Appended codec wal refused tail pending request bytes rest
      (fileRecords wal pending (chunk codec wal ⟨request, .failed bytes⟩ ++ rest)) := by
  have hinside : ¬(payload codec wal request).length < bytes → bytes ≤ (payload codec wal request).length := by omega
  show Appended codec wal refused tail pending request bytes rest
    (fileRecords wal pending ((payload codec wal request ++ [newline]).take bytes ++ rest))
  by_cases hall : (payload codec wal request).length < bytes
  · have hlength : (payload codec wal request ++ [newline]).length ≤ bytes := by
      rw [List.length_append, List.length_singleton]
      omega
    rw [List.take_of_length_le hlength, lines_ended hstrict h hwrites]
    exact .ended hall
  · cases hdecode : decode ((payload codec wal request).take bytes) with
    | none =>
        rw [List.take_append_of_le_length (hinside hall), lines_cut h hdecode hrest fun hin =>
          hwrites.newline_not_mem (List.mem_of_mem_take hin)]
        exact .cut hdecode
    | some part =>
        obtain ⟨pending', hpending', hrecords⟩ := lines_part hstrict h hwrites hrefused (hinside hall)
          (by rw [hdecode]; rfl) rest
        rw [hrecords]
        exact .left hall (by rw [hdecode]; rfl) pending' hpending'

end Chunks

/-! ### The records of a file -/

section Files

variable {codec wal}

/-- The records of the appends that have failed. -/
def Refuses (codec : DecimalCodec) (refused : WalRecord → Prop) (attempts : List Append) : Prop :=
  ∀ a ∈ attempts, a.written ≠ .ok → refused (a.request.record codec)

theorem acknowledged_ok (request : Request) (attempts : List Append) :
    acknowledged codec (⟨request, .ok⟩ :: attempts) = request.record codec :: acknowledged codec attempts := by
  simp [acknowledged]

theorem acknowledged_failed (request : Request) (bytes : ℕ) (attempts : List Append) :
    acknowledged codec (⟨request, .failed bytes⟩ :: attempts) = acknowledged codec attempts := by
  simp [acknowledged]

/-- **Under the condition the acknowledged records are read.** -/
theorem records_of_framed (hstrict : wal.Strict) (attempts : List Append) : ∀ {tail : Tail} {pending : Bytes},
    (∀ a ∈ attempts, wal.Writes (a.request.record codec)) → Pending codec wal (fun _ => True) tail pending →
    Framed codec wal tail attempts →
    fileRecords wal pending (attempts.flatMap (chunk codec wal)) = some (acknowledged codec attempts) := by
  induction attempts with
  | nil =>
      intro tail pending _ hpending hframed
      rcases records_end hstrict hpending with ⟨-, hrecords⟩ | ⟨_, htail, -⟩
      · exact hrecords
      · exact absurd htail hframed
  | cons a attempts ih =>
      intro tail pending hwrites hpending hframed
      obtain ⟨request, written⟩ := a
      obtain ⟨hrequest, hothers⟩ := List.forall_mem_cons.mp hwrites
      rw [List.flatMap_cons]
      cases written with
      | ok =>
          obtain ⟨rfl, hrest⟩ := hframed
          have hended := lines_ended hstrict hpending hrequest (attempts.flatMap (chunk codec wal))
          rw [chunk, hended, ih hothers .fresh hrest, acknowledged_ok]
          rfl
      | failed bytes =>
          obtain ⟨hdecode, hnewline, hrest⟩ := hframed
          rw [acknowledged_failed]
          have happended := appended_of_failed hstrict hpending hrequest trivial bytes (chunks_head hothers)
          generalize fileRecords wal pending _ = records at happended ⊢
          cases happended with
          | ended hall =>
              have hafter : tail.after (payload codec wal request).length bytes = .fresh := by
                rw [Tail.after, if_neg (by omega), if_pos hall]
              rw [hafter] at hrest
              rw [ih hothers .fresh hrest]
              simp only [if_neg (hnewline hall), Option.map_some]
          | left hinside hdecode pending' hpending' => exact ih hothers hpending' hrest
          | cut hcut =>
              rw [hcut] at hdecode
              cases hdecode

/-- **What is read besides the refused records** are acknowledged ones, each at most once. -/
theorem records_sublist (hstrict : wal.Strict) (p : WalRecord → Bool) (attempts : List Append) :
    ∀ {tail : Tail} {pending : Bytes} {records : List WalRecord},
    (∀ a ∈ attempts, wal.Writes (a.request.record codec)) → Refuses codec (fun record => p record = false) attempts →
    Pending codec wal (fun record => p record = false) tail pending →
    fileRecords wal pending (attempts.flatMap (chunk codec wal)) = some records →
    (records.filter p).Sublist (acknowledged codec attempts) := by
  induction attempts with
  | nil =>
      intro tail pending records _ _ hpending hrecords
      rcases records_end hstrict hpending with ⟨-, hend⟩ | ⟨record, -, hp, hend⟩
      · cases hend.symm.trans hrecords
        exact List.Sublist.refl _
      · cases hend.symm.trans hrecords
        simp [hp]
  | cons a attempts ih =>
      intro tail pending records hwrites hrefuses hpending hrecords
      obtain ⟨request, written⟩ := a
      obtain ⟨hrequest, hothers⟩ := List.forall_mem_cons.mp hwrites
      obtain ⟨hrefused, hrefusals⟩ := List.forall_mem_cons.mp hrefuses
      rw [List.flatMap_cons] at hrecords
      cases written with
      | ok =>
          rw [chunk, lines_ended hstrict hpending hrequest] at hrecords
          obtain ⟨rest, hrest, rfl⟩ := Option.map_eq_some_iff.mp hrecords
          have hsub := ih hothers hrefusals .fresh hrest
          rw [acknowledged_ok]
          split_ifs
          · rw [List.filter_cons]
            split_ifs
            · exact hsub.cons_cons _
            · exact hsub.cons _
          · exact hsub.cons _
      | failed bytes =>
          have hp : p (request.record codec) = false := hrefused (by simp)
          rw [acknowledged_failed]
          have happended := appended_of_failed hstrict hpending hrequest hp bytes (chunks_head hothers)
          rw [hrecords] at happended
          generalize hread : some records = read at happended
          cases happended with
          | ended hall =>
              obtain ⟨rest, hrest, rfl⟩ := Option.map_eq_some_iff.mp hread.symm
              have hsub := ih hothers hrefusals .fresh hrest
              split_ifs
              · rwa [List.filter_cons, if_neg (by simp [hp])]
              · exact hsub
          | left hinside hdecode pending' hpending' => exact ih hothers hrefusals hpending' hread.symm
          | cut hcut => cases hread

/-- **Where the acknowledged records are read, the condition holds**, if no record is both acknowledged and refused. -/
theorem framed_of_records (hstrict : wal.Strict) (p : WalRecord → Bool) (attempts : List Append) :
    ∀ {tail : Tail} {pending : Bytes},
    (∀ a ∈ attempts, wal.Writes (a.request.record codec)) → Refuses codec (fun record => p record = false) attempts →
    (∀ record ∈ acknowledged codec attempts, p record = true) →
    Pending codec wal (fun record => p record = false) tail pending →
    fileRecords wal pending (attempts.flatMap (chunk codec wal)) = some (acknowledged codec attempts) →
    Framed codec wal tail attempts := by
  induction attempts with
  | nil =>
      intro tail pending _ _ _ hpending hrecords
      rcases records_end hstrict hpending with ⟨htail, -⟩ | ⟨record, -, -, hend⟩
      · exact htail
      · cases hend.symm.trans hrecords
  | cons a attempts ih =>
      intro tail pending hwrites hrefuses hkeeps hpending hrecords
      obtain ⟨request, written⟩ := a
      obtain ⟨hrequest, hothers⟩ := List.forall_mem_cons.mp hwrites
      obtain ⟨hrefused, hrefusals⟩ := List.forall_mem_cons.mp hrefuses
      rw [List.flatMap_cons] at hrecords
      cases written with
      | ok =>
          rw [acknowledged_ok] at hkeeps hrecords
          rw [chunk, lines_ended hstrict hpending hrequest] at hrecords
          obtain ⟨rest, hrest, hread⟩ := Option.map_eq_some_iff.mp hrecords
          have hkept : ∀ record ∈ acknowledged codec attempts, p record = true :=
            fun record hrecord => hkeeps record (List.mem_cons_of_mem _ hrecord)
          by_cases htail : tail = .fresh
          · rw [if_pos htail] at hread
            rw [(List.cons.inj hread).2] at hrest
            exact ⟨htail, ih hothers hrefusals hkept .fresh hrest⟩
          · -- the record is lost, and what is read afterwards cannot make up for it
            rw [if_neg htail] at hread
            have hsub := records_sublist hstrict p attempts hothers hrefusals .fresh hrest
            rw [hread, List.filter_eq_self.mpr hkeeps] at hsub
            have hlength := hsub.length_le
            rw [List.length_cons] at hlength
            omega
      | failed bytes =>
          have hp : p (request.record codec) = false := hrefused (by simp)
          rw [acknowledged_failed] at hkeeps hrecords
          have happended := appended_of_failed hstrict hpending hrequest hp bytes (chunks_head hothers)
          rw [hrecords] at happended
          generalize hread : some (acknowledged codec attempts) = read at happended
          cases happended with
          | ended hall =>
              obtain ⟨rest, hrest, hsame⟩ := Option.map_eq_some_iff.mp hread.symm
              by_cases htail : tail = .fresh
              · rw [if_pos htail] at hsame
                have hkept := hkeeps (request.record codec) (hsame ▸ List.mem_cons_self)
                rw [hp] at hkept
                cases hkept
              · rw [if_neg htail] at hsame
                subst hsame
                refine ⟨?_, fun _ => htail, ?_⟩
                · rw [List.take_of_length_le (Nat.le_of_lt hall), payload, Utf8.decode_encode]
                  rfl
                · rw [Tail.after, if_neg (by omega), if_pos hall]
                  exact ih hothers hrefusals hkeeps .fresh hrest
          | left hinside hdecode pending' hpending' =>
              exact ⟨hdecode, fun hall => absurd hall hinside, ih hothers hrefusals hkeeps hpending' hread.symm⟩
          | cut hcut => cases hread

/-- No record is that of an append that returned `Ok` and that of one that failed. -/
def Unambiguous (codec : DecimalCodec) (attempts : List Append) : Prop :=
  Refuses codec (fun record => record ∉ acknowledged codec attempts) attempts

/-- **Failed appends.**  Under the condition the log survives, and its replay gives the books that the acknowledged
records give; where no record is ambiguous, the log survives under no other condition. -/
theorem framing_survives {codec : DecimalCodec} (hcodec : codec.Lawful) {wal : WalCodec} (hstrict : wal.Strict)
    {attempts : List Append} (hwrites : ∀ a ∈ attempts, wal.Writes (a.request.record codec)) :
    (Framed codec wal .fresh attempts → Survives codec wal attempts ∧
      ∀ uuid books, BooksInv books → ∃ books', replayFile codec wal uuid books (walFile codec wal attempts) = .ok books' ∧
        replayWal codec uuid books (acknowledged codec attempts) = .ok books') ∧
    (Unambiguous codec attempts → Survives codec wal attempts → Framed codec wal .fresh attempts) := by
  constructor
  · intro hframed
    have hrecords := records_of_framed hstrict attempts hwrites .fresh hframed
    rw [← walFile_eq] at hrecords
    refine ⟨hrecords, fun uuid books hinv => ?_⟩
    obtain ⟨books', hreplay, -⟩ := replayWal_performed hcodec
      ((attempts.filter fun a => a.written = .ok).map fun a => (0, a.request)) uuid books hinv
    rw [List.map_map] at hreplay
    have hacknowledged : replayWal codec uuid books (acknowledged codec attempts) = .ok books' := hreplay
    refine ⟨books', ?_, hacknowledged⟩
    rw [replayFile, replayLines_records _ _ hrecords, hacknowledged]
    rfl
  · intro hunambiguous hsurvives
    rw [Survives, walFile_eq] at hsurvives
    refine framed_of_records hstrict (fun record => decide (record ∈ acknowledged codec attempts)) attempts hwrites
      (fun a ha hfailed => ?_) (fun record hrecord => decide_eq_true hrecord) .fresh hsurvives
    exact decide_eq_false (hunambiguous a ha hfailed)

end Files

/-! ### Two appends -/

/-- A string without characters to escape. -/
def quoted (value : String) : List Char := '"' :: value.toList ++ ['"']

def jsonObject (members : List (String × List Char)) : List Char :=
  '\x7b' :: ([','].intercalate (members.map fun member => quoted member.1 ++ ':' :: member.2)) ++ ['\x7d']

def cancelFirst : Request := .cancel "BTC-USDT" "bid-1" "u1"

def submitSecond : Request := .submit "BTC-USDT" (Order.limit "bid-2" "u1" .buy 99 3)

def cancelText : List Char :=
  jsonObject [("type", quoted "Cancel"), ("symbol", quoted "BTC-USDT"), ("order_id", quoted "bid-1"),
    ("user_id", quoted "u1")]

def submitText : List Char :=
  jsonObject [("type", quoted "Submit"), ("symbol", quoted "BTC-USDT"), ("order", jsonObject [("order_id", quoted "bid-2"),
    ("user_id", quoted "u1"), ("side", quoted "Buy"), ("kind", quoted "Limit"), ("price", quoted "99"),
    ("stop_price", "null".toList), ("original_quantity", quoted "3"), ("remaining_quantity", quoted "3"),
    ("sequence", ['0'])])]

/-- The texts of the two records, and how they are read. -/
def twoTexts : WalCodec where
  toText
    | .cancel _ _ _ => cancelText
    | .submit _ _ => submitText
  fromText text :=
    if text = cancelText then some (cancelFirst.record fractionCodec)
    else if text = submitText then some (submitSecond.record fractionCodec)
    else none

theorem twoTexts_strict : twoTexts.Strict := by
  intro text record h
  simp only [twoTexts] at h
  unfold Nesting.Complete
  split_ifs at h with hcancel hsubmit
  · rw [hcancel]
    decide +kernel
  · rw [hsubmit]
    decide +kernel

theorem twoTexts_cancel : twoTexts.Writes (cancelFirst.record fractionCodec) :=
  ⟨by decide +kernel, ⟨(cancelText.drop 8).dropLast, by decide +kernel⟩, by decide +kernel⟩

theorem twoTexts_submit : twoTexts.Writes (submitSecond.record fractionCodec) :=
  ⟨by decide +kernel, ⟨(submitText.drop 8).dropLast, by decide +kernel⟩, by decide +kernel⟩

/-- The disk is full within the first append, and the second succeeds. -/
def fullWithinFirst : List Append := [⟨cancelFirst, .failed 20⟩, ⟨submitSecond, .ok⟩]

/-- **An acknowledged order is dropped**: its record stands behind the rest of the first. -/
theorem acknowledged_order_dropped :
    twoTexts.Strict ∧ (∀ a ∈ fullWithinFirst, twoTexts.Writes (a.request.record fractionCodec)) ∧
      acknowledged fractionCodec fullWithinFirst = [submitSecond.record fractionCodec] ∧
      fileRecords twoTexts [] (walFile fractionCodec twoTexts fullWithinFirst) = some [] ∧
      ¬Survives fractionCodec twoTexts fullWithinFirst := by
  have hrecords : fileRecords twoTexts [] (walFile fractionCodec twoTexts fullWithinFirst) = some [] := by
    have hfresh : Pending fractionCodec twoTexts (fun _ => True) .fresh [] := .fresh
    have htorn : Tail.after .fresh (payload fractionCodec twoTexts cancelFirst).length 20 = .torn := by decide +kernel
    obtain ⟨pending, hpending, hpart⟩ := lines_part twoTexts_strict hfresh twoTexts_cancel trivial
      (by decide +kernel : 20 ≤ _) (by decide +kernel) (payload fractionCodec twoTexts submitSecond ++ [newline] ++ [])
    rw [htorn] at hpending
    rw [lines_ended twoTexts_strict hpending twoTexts_submit [], List.append_nil] at hpart
    exact hpart
  refine ⟨twoTexts_strict, ?_, by decide +kernel, hrecords, ?_⟩
  · intro a ha
    simp only [fullWithinFirst, List.mem_cons, List.not_mem_nil, or_false] at ha
    rcases ha with rfl | rfl
    · exact twoTexts_cancel
    · exact twoTexts_submit
  · intro hsurvives
    cases hrecords.symm.trans hsurvives

/-- The first append fails before it writes. -/
def fullBeforeFirst : List Append := [⟨cancelFirst, .failed 0⟩, ⟨submitSecond, .ok⟩]

theorem framing_survives_fullBeforeFirst :
    Framed fractionCodec twoTexts .fresh fullBeforeFirst ∧ Survives fractionCodec twoTexts fullBeforeFirst := by
  have hframed : Framed fractionCodec twoTexts .fresh fullBeforeFirst := by decide +kernel
  refine ⟨hframed, ((framing_survives fractionCodec_lawful twoTexts_strict ?_).1 hframed).1⟩
  intro a ha
  simp only [fullBeforeFirst, List.mem_cons, List.not_mem_nil, or_false] at ha
  rcases ha with rfl | rfl
  · exact twoTexts_cancel
  · exact twoTexts_submit

end NexusTrade.MatchingEngine
