/-
  The log of `control/loader.c`: `zereh_log_emit` and what a reader makes of it.

  * `readLog_structured`: a stream of structured lines gives back, call by call, the time, the level and
    the message: its first 511 bytes, with an apostrophe for a quotation mark and a blank for a byte that
    ends a line. So no name in a message forges an entry.
  * `plain_lines`: in plain mode this holds of the lines exactly when no message has a newline in its
    first 511 bytes.

  A message is taken as it is formatted, before `vsnprintf` cuts it. Lines that `perror` writes to the same
  stream are not looked at.
-/
import Mathlib.Tactic.Common
import Zereh.Lib.CLex

namespace Zereh.Control

open Lib CText

/-! ## Writing -/

/-- `time` and `gmtime_r`, if it returns a time. -/
inductive Stamp where
  | utc (year month day hour minute second : Nat)
  | unknown

/-- `%m` and the like. -/
def twoDigits (n : Nat) : List UInt8 := [48 + UInt8.ofNat (n / 10 % 10), 48 + UInt8.ofNat (n % 10)]

/-- `zereh_log_timestamp_utc`. -/
def Stamp.text : Stamp → List UInt8
  | .utc year month day hour minute second =>
      decimal year ++ ascii "-" ++ twoDigits month ++ ascii "-" ++ twoDigits day ++ ascii "T" ++
        twoDigits hour ++ ascii ":" ++ twoDigits minute ++ ascii ":" ++ twoDigits second ++ ascii "Z"
  | .unknown => ascii "unknown"

inductive Level where
  | info
  | warn
  | error
  deriving DecidableEq

def Level.text : Level → List UInt8
  | .info => ascii "info"
  | .warn => ascii "warn"
  | .error => ascii "error"

/-- One byte of `zereh_log_sanitize_message`. -/
def sanitizeByte (c : UInt8) : UInt8 :=
  if c = 34 then 39 else if c = 10 ∨ c = 13 ∨ c = 9 then 32 else c

/-- The loop, with the room that is left before the NUL. -/
def sanitizeLoop : Nat → List UInt8 → List UInt8
  | 0, _ => []
  | _ + 1, [] => []
  | room + 1, c :: cs => sanitizeByte c :: sanitizeLoop room cs

/-- `zereh_log_sanitize_message`. -/
def logSanitizeMessage (message : CStr) (outLen : Nat) : List UInt8 :=
  if outLen = 0 then [] else sanitizeLoop (outLen - 1) message.bytes

structure Entry where
  stamp : Stamp
  level : Level
  text : CStr

/-- `zereh_log_emit`. -/
def logEmit (structured : Bool) (entry : Entry) : List UInt8 :=
  let message := entry.text.clip 511
  if structured then
    ascii "ts=" ++ entry.stamp.text ++ ascii " level=" ++ entry.level.text ++
      ascii " component=loader msg=\"" ++ logSanitizeMessage message 512 ++ ascii "\"\n"
  else ascii "[loader] [" ++ entry.level.text ++ ascii "] " ++ message.bytes ++ ascii "\n"

/-- What a stream holds after these calls. -/
def logStream (structured : Bool) (entries : List Entry) : List UInt8 := entries.flatMap (logEmit structured)

/-! ## Reading -/

/-- What stands before the first `d`, and after it. -/
def upTo (d : UInt8) : List UInt8 → Option (List UInt8 × List UInt8)
  | [] => none
  | c :: cs => if c = d then some ([], cs) else (upTo d cs).map fun r => (c :: r.1, r.2)

/-- The rest after a fixed text. -/
def after (text line : List UInt8) : Option (List UInt8) :=
  if text.isPrefixOf line then some (line.drop text.length) else none

/-- The time, the level and the message of a line. -/
def readLine (line : List UInt8) : Option (List UInt8 × List UInt8 × List UInt8) := do
  let line ← after (ascii "ts=") line
  let (stamp, line) ← upTo 32 line
  let line ← after (ascii "level=") line
  let (level, line) ← upTo 32 line
  let line ← after (ascii "component=loader msg=\"") line
  let (message, line) ← upTo 34 line
  if line = [] then some (stamp, level, message) else none

/-- The lines of a stream; what follows the last newline must be nothing. -/
def readLog (stream : List UInt8) : Option (List (List UInt8 × List UInt8 × List UInt8)) :=
  let lines := stream.splitOn 10
  if lines.getLast? = some [] then lines.dropLast.mapM readLine else none

theorem upTo_append {d : UInt8} {l : List UInt8} (h : d ∉ l) (r : List UInt8) :
    upTo d (l ++ d :: r) = some (l, r) := by
  induction l with
  | nil => exact if_pos rfl
  | cons c cs ih =>
    rw [List.mem_cons, not_or] at h
    rw [List.cons_append, upTo, if_neg (Ne.symm h.1), ih h.2]
    rfl

theorem after_append (text line : List UInt8) : after text (text ++ line) = some line := by
  rw [after, if_pos (List.isPrefixOf_iff_prefix.mpr (List.prefix_append _ _)), List.drop_left]

/-! ## What is written can be read -/

theorem sanitizeLoop_eq (room : Nat) (s : List UInt8) :
    sanitizeLoop room s = (s.take room).map sanitizeByte := by
  induction room generalizing s with
  | zero => rfl
  | succ room ih =>
    cases s with
    | nil => rfl
    | cons c cs => rw [sanitizeLoop, ih, List.take_succ_cons, List.map_cons]

/-- The message as it is in the log. -/
def Entry.logged (entry : Entry) : List UInt8 := (entry.text.bytes.take 511).map sanitizeByte

theorem logSanitizeMessage_eq (entry : Entry) :
    logSanitizeMessage (entry.text.clip 511) 512 = entry.logged := by
  unfold logSanitizeMessage Entry.logged
  rw [if_neg (by decide), sanitizeLoop_eq]
  show (List.take 511 (List.take 511 entry.text.bytes)).map _ = _
  rw [List.take_take, min_self]

theorem sanitizeByte_ne (c : UInt8) :
    sanitizeByte c ≠ 34 ∧ sanitizeByte c ≠ 10 ∧ sanitizeByte c ≠ 13 ∧ sanitizeByte c ≠ 9 := by
  unfold sanitizeByte
  split_ifs with hquote hend
  · decide
  · decide
  · rw [not_or, not_or] at hend
    exact ⟨hquote, hend⟩

theorem not_mem_logged (entry : Entry) : (34 : UInt8) ∉ entry.logged ∧ (10 : UInt8) ∉ entry.logged := by
  constructor
  · intro h
    obtain ⟨c, -, hc⟩ := List.mem_map.mp h
    exact (sanitizeByte_ne c).1 hc
  · intro h
    obtain ⟨c, -, hc⟩ := List.mem_map.mp h
    exact (sanitizeByte_ne c).2.1 hc

/-! ### Lines -/

section Lines

variable {body : Entry → List UInt8}

theorem splitOn_lines (entries : List Entry) (h : ∀ e ∈ entries, (10 : UInt8) ∉ body e) :
    (entries.flatMap fun e => body e ++ [10]).splitOn 10 = entries.map body ++ [[]] := by
  induction entries with
  | nil => rfl
  | cons e entries ih =>
    rw [List.flatMap_cons, List.append_assoc, List.singleton_append,
      List.splitOn_append_cons_self_of_not_mem (h e List.mem_cons_self),
      ih fun e he => h e (List.mem_cons_of_mem _ he)]
    rfl

theorem not_mem_of_mem_splitOn {d : UInt8} {l p : List UInt8} (h : p ∈ l.splitOn d) : d ∉ p := by
  induction l generalizing p with
  | nil =>
    rw [List.splitOn_nil, List.mem_singleton] at h
    rw [h]
    exact List.not_mem_nil
  | cons c cs ih =>
    rw [List.splitOn_cons_eq_if_modifyHead] at h
    split_ifs at h with hc
    · rcases List.mem_cons.mp h with rfl | h
      · exact List.not_mem_nil
      · exact ih h
    · obtain ⟨q, qs, hq⟩ := List.exists_cons_of_ne_nil (List.splitOn_ne_nil d cs)
      rw [hq, List.modifyHead_cons] at h
      rcases List.mem_cons.mp h with rfl | h
      · rw [List.mem_cons, not_or]
        refine ⟨fun heq => hc (beq_iff_eq.mpr heq.symm), ?_⟩
        exact ih (hq ▸ List.mem_cons_self)
      · exact ih (hq ▸ List.mem_cons_of_mem _ h)

end Lines

/-! ### Structured lines -/

theorem not_mem_twoDigits (n : Nat) {c : UInt8} (hc : c < 48) : c ∉ twoDigits n := by
  have hdigit (m : Nat) (hm : m < 10) : c ≠ 48 + UInt8.ofNat m := by
    intro heq
    have h := congrArg UInt8.toNat heq
    have hzero : (48 : UInt8).toNat = 48 := rfl
    rw [UInt8.toNat_add, UInt8.toNat_ofNat', hzero] at h
    rw [UInt8.lt_iff_toNat_lt, hzero] at hc
    omega
  unfold twoDigits
  rw [List.mem_cons, List.mem_singleton, not_or]
  exact ⟨hdigit _ (Nat.mod_lt _ (by decide)), hdigit _ (Nat.mod_lt _ (by decide))⟩

theorem not_mem_decimal (n : Nat) {c : UInt8} (hc : c < 48) : c ∉ decimal n := by
  intro h
  obtain ⟨d, hd⟩ := digit_of_mem_toDigits (by decide) (by decide) n h
  have hall : ∀ d : Fin 16, ¬byteOf (Nat.digitChar d) < 48 := by decide
  exact hall d (hd ▸ hc)

/-- A time has no blank and no newline. -/
theorem not_mem_stamp (stamp : Stamp) {c : UInt8} (hc : c = 32 ∨ c = 10) : c ∉ stamp.text := by
  have hlow : c < 48 := by
    rcases hc with rfl | rfl
    · decide
    · decide
  cases stamp with
  | unknown =>
    rcases hc with rfl | rfl
    · decide
    · decide
  | utc year month day hour minute second =>
    have hfixed : c ∉ ascii "-" ∧ c ∉ ascii "T" ∧ c ∉ ascii ":" ∧ c ∉ ascii "Z" := by
      rcases hc with rfl | rfl
      · decide
      · decide
    unfold Stamp.text
    simp only [List.mem_append, not_or]
    have htwo (n : Nat) : c ∉ twoDigits n := not_mem_twoDigits n hlow
    exact ⟨⟨⟨⟨⟨⟨⟨⟨⟨⟨⟨not_mem_decimal year hlow, hfixed.1⟩, htwo month⟩, hfixed.1⟩, htwo day⟩, hfixed.2.1⟩,
      htwo hour⟩, hfixed.2.2.1⟩, htwo minute⟩, hfixed.2.2.1⟩, htwo second⟩, hfixed.2.2.2⟩

theorem not_mem_level (level : Level) {c : UInt8} (hc : c = 32 ∨ c = 10) : c ∉ level.text := by
  rcases hc with rfl | rfl
  · cases level <;> decide
  · cases level <;> decide

/-- A structured line without its newline. -/
def Entry.line (entry : Entry) : List UInt8 :=
  ascii "ts=" ++ (entry.stamp.text ++ 32 :: (ascii "level=" ++ (entry.level.text ++
    32 :: (ascii "component=loader msg=\"" ++ (entry.logged ++ [34])))))

theorem logEmit_structured (entry : Entry) : logEmit true entry = entry.line ++ [10] := by
  unfold logEmit Entry.line
  dsimp only
  rw [if_pos rfl, logSanitizeMessage_eq]
  simp only [List.append_assoc, List.cons_append]
  rfl

theorem readLine_line (entry : Entry) :
    readLine entry.line = some (entry.stamp.text, entry.level.text, entry.logged) := by
  have hstamp := not_mem_stamp entry.stamp (c := 32) (.inl rfl)
  have hlevel := not_mem_level entry.level (c := 32) (.inl rfl)
  unfold readLine Entry.line
  rw [after_append]
  dsimp only [Option.bind_eq_bind, Option.bind_some]
  rw [upTo_append hstamp]
  dsimp only [Option.bind_some]
  rw [after_append]
  dsimp only [Option.bind_some]
  rw [upTo_append hlevel]
  dsimp only [Option.bind_some]
  rw [after_append]
  dsimp only [Option.bind_some]
  rw [upTo_append (not_mem_logged entry).1]
  rfl

theorem mapM_readLine (entries : List Entry) : (entries.map Entry.line).mapM readLine =
    some (entries.map fun entry => (entry.stamp.text, entry.level.text, entry.logged)) := by
  induction entries with
  | nil => rfl
  | cons entry entries ih =>
    rw [List.map_cons, List.mapM_cons, readLine_line, ih]
    rfl

/-- A structured log is read back entry by entry. -/
theorem readLog_structured (entries : List Entry) :
    readLog (logStream true entries) =
      some (entries.map fun entry => (entry.stamp.text, entry.level.text, entry.logged)) := by
  have hline (entry : Entry) : (10 : UInt8) ∉ entry.line := by
    have hstamp := not_mem_stamp entry.stamp (c := 10) (.inr rfl)
    have hlevel := not_mem_level entry.level (c := 10) (.inr rfl)
    have hlogged := (not_mem_logged entry).2
    unfold Entry.line
    simp only [List.mem_append, List.mem_cons, not_or]
    refine ⟨by decide, hstamp, by decide, by decide, hlevel, by decide, by decide, hlogged, by decide⟩
  have hstream : logStream true entries = entries.flatMap fun entry => entry.line ++ [10] := by
    rw [logStream, funext logEmit_structured]
  have hlines := splitOn_lines entries fun entry _ => hline entry
  unfold readLog
  rw [hstream, hlines]
  dsimp only
  rw [List.getLast?_concat, if_pos rfl, List.dropLast_concat]
  exact mapM_readLine entries

/-! ### Plain lines -/

/-- A plain line without its newline. -/
def Entry.plain (entry : Entry) : List UInt8 :=
  ascii "[loader] [" ++ entry.level.text ++ ascii "] " ++ entry.text.bytes.take 511

/-- In plain mode the lines are those of the calls exactly when no message has a newline in its first
    511 bytes. -/
theorem plain_lines (entries : List Entry) :
    (logStream false entries).splitOn 10 = entries.map Entry.plain ++ [[]] ↔
      ∀ entry ∈ entries, (10 : UInt8) ∉ entry.text.bytes.take 511 := by
  have hstream : logStream false entries = entries.flatMap fun entry => entry.plain ++ [10] := rfl
  have hplain (entry : Entry) : (10 : UInt8) ∈ entry.plain ↔ (10 : UInt8) ∈ entry.text.bytes.take 511 := by
    have hlevel := not_mem_level entry.level (c := 10) (.inr rfl)
    unfold Entry.plain
    rw [List.mem_append, List.mem_append, List.mem_append]
    constructor
    · rintro (((h | h) | h) | h)
      · exact absurd h (by decide)
      · exact absurd h hlevel
      · exact absurd h (by decide)
      · exact h
    · exact fun h => .inr h
  rw [hstream]
  constructor
  · intro h entry hentry hmem
    have hpiece : entry.plain ∈ (entries.flatMap fun entry => entry.plain ++ [10]).splitOn 10 := by
      rw [h]
      exact List.mem_append_left _ (List.mem_map_of_mem hentry)
    exact not_mem_of_mem_splitOn hpiece ((hplain entry).mpr hmem)
  · intro h
    exact splitOn_lines entries fun entry hentry hmem => h entry hentry ((hplain entry).mp hmem)

end Zereh.Control
