/-
  `control/codegen.c`: the string builder, and the two functions that return what it holds.

  A builder is an object on the heap with a length and a capacity in `size_t`. The operations
  return 0 or -1; here -1 is `none`, with the builder as it was before the call. The loops take a
  number of rounds and end in `Trap.endless` when they run out: what is proved to return needs no
  more rounds than it has.

  `Sb.Holds content sb` is the invariant: the object has `cap` bytes, starts with the content and a
  NUL behind it, and `len` is the length of the content. Each operation has one lemma, from
  `Holds content` to `Holds (content ++ text)`.
-/
import Zereh.Lib.CMemory
import Zereh.Control.Codegen

namespace Zereh.Control

open Lib

/-! ## The code -/

/-- `struct zereh_sb`; `data` is the object that the pointer is to. -/
structure Sb where
  data : List UInt8
  len : UInt64
  cap : UInt64
  deriving DecidableEq

/-- `while (cap < required) cap *= 2`. -/
def growLoop (required : UInt64) : Nat → UInt64 → Option UInt64
  | 0, _ => none
  | n + 1, cap => if cap < required then growLoop required n (cap * 2) else some cap

section Code

variable {σ : Type} (heap : Allocator σ)

/-- `zereh_sb_init`. -/
def sbInit (cap : UInt64) : Run σ (Option Sb) := do
  let some data ← calloc heap cap.toNat | pure none
  pure (some { data := data, len := 0, cap := cap })

/-- `zereh_sb_reserve`. After 64 rounds the capacity is 0 and stays 0, so that a loop that needs
    more never ends. -/
def sbReserve (sb : Sb) (extra : UInt64) : Run σ (Option Sb) := do
  let required := sb.len + extra + 1
  if required ≤ sb.cap then pure (some sb)
  else
    match growLoop required 65 sb.cap with
    | none => throw .endless
    | some cap =>
      let some next ← realloc heap sb.data cap.toNat | pure none
      pure (some { sb with data := next, cap := cap })

/-- `zereh_sb_appendn`; `text` is what can be read at the pointer. -/
def sbAppendn (sb : Sb) (text : List UInt8) (n : UInt64) : Run σ (Option Sb) := do
  let some sb ← sbReserve heap sb n | pure none
  let data ← check (memcpy sb.data sb.len.toNat text n.toNat)
  let len := sb.len + n
  let data ← check (writeAt data len.toNat 0)
  pure (some { sb with data := data, len := len })

/-- `zereh_sb_appendf` for a format that prints `text`. -/
def sbAppendf (sb : Sb) (text : List UInt8) : Run σ (Option Sb) := do
  let (need, _) ← check (vsnprintf text [] 0 0)
  if need < 0 then pure none
  else
    let some sb ← sbReserve heap sb (UInt64.ofNat need.toNat) | pure none
    let (_, data) ← check (vsnprintf text sb.data sb.len.toNat (sb.cap - sb.len).toNat)
    pure (some { sb with data := data, len := sb.len + UInt64.ofNat need.toNat })

/-- One byte of `zereh_escape_c_string`. -/
def escapeStep (sb : Sb) (c : UInt8) : Run σ (Option Sb) :=
  if c = 92 ∨ c = 34 then sbAppendf heap sb [92, c]
  else if c = 10 then sbAppendn heap sb [92, 110] 2
  else if c = 13 then sbAppendn heap sb [92, 114] 2
  else if c = 9 then sbAppendn heap sb [92, 116] 2
  else sbAppendn heap sb [c] 1

/-- `for (i = 0; text[i] != '\0'; i++)`. -/
def escapeLoop : List UInt8 → Sb → Run σ (Option Sb)
  | [], sb => pure (some sb)
  | c :: cs, sb => do
    let some sb ← escapeStep heap sb c | pure none
    escapeLoop cs sb

/-- `zereh_escape_c_string`; a null pointer is `none`. -/
def zerehEscapeCString (text : Option CStr) : Run σ (Option CStr) := do
  match text with
  | none =>
    let some _ ← calloc heap 1 | pure none
    pure (some CStr.empty)
  | some text =>
    let some sb ← sbInit heap 64 | pure none
    let some sb ← escapeLoop heap text.bytes sb | pure none
    pure (some (CStr.ofBytes sb.data))

/-- `while ((hit = strstr (cursor, token)) != NULL)` and the rest of the text behind it. -/
def replaceAllLoop (token replacement : CStr) : Nat → List UInt8 → Sb → Run σ (Option Sb)
  | 0, _, _ => throw .endless
  | n + 1, cursor, sb =>
    match strstr token.bytes cursor with
    | some hit => do
      let some sb ← sbAppendn heap sb cursor (UInt64.ofNat hit) | pure none
      let some sb ← sbAppendn heap sb replacement.bytes (UInt64.ofNat replacement.len) | pure none
      replaceAllLoop token replacement n (cursor.drop (hit + token.len)) sb
    | none => sbAppendn heap sb cursor (UInt64.ofNat cursor.length)

/-- `strlen (input) + strlen (replacement) + 256`. -/
def replaceCap (input replacement : CStr) : UInt64 :=
  UInt64.ofNat input.len + UInt64.ofNat replacement.len + 256

/-- `zereh_replace_all`; a null pointer is `none`, and `strlen (token)` reads it before the
    check. -/
def zerehReplaceAll (input token replacement : Option CStr) : Run σ (Option CStr) := do
  let some token := token | throw (.fault (.read 0))
  match input, replacement with
  | some input, some replacement =>
    if token.len = 0 then pure none
    else
      let some sb ← sbInit heap (replaceCap input replacement) | pure none
      let some sb ← replaceAllLoop heap token replacement (input.len + 1) input.bytes sb | pure none
      pure (some (CStr.ofBytes sb.data))
  | _, _ => pure none

end Code

/-! ## The invariant -/

/-- The builder holds `content`, with a NUL behind it. -/
structure Sb.Holds (content : List UInt8) (sb : Sb) : Prop where
  size : sb.data.length = sb.cap.toNat
  len : sb.len.toNat = content.length
  room : sb.len < sb.cap
  stored : content ++ [0] <+: sb.data

/-- The largest `size_t`. -/
def sizeMax : Nat := 2 ^ 64 - 1

theorem toNat_ofNat_of_le {n : Nat} (h : n ≤ sizeMax / 2) : (UInt64.ofNat n).toNat = n := by
  rw [UInt64.toNat_ofNat']
  unfold sizeMax at h
  omega

/-- The loop ends as soon as enough doublings are left, none of which overflows. -/
theorem growLoop_ends {required : UInt64} (hreq : required.toNat ≤ sizeMax / 2) (n : Nat) :
    ∀ cap : UInt64, required.toNat ≤ cap.toNat * 2 ^ n →
      ∃ cap', growLoop required (n + 1) cap = some cap' ∧ required ≤ cap' ∧ cap ≤ cap' := by
  induction n with
  | zero =>
    intro cap hcap
    have hle : required ≤ cap := UInt64.le_iff_toNat_le.mpr (by omega)
    exact ⟨cap, by rw [growLoop, if_neg (UInt64.not_lt.mpr hle)], hle, UInt64.le_refl cap⟩
  | succ n ih =>
    intro cap hcap
    by_cases hlt : cap < required
    · have hlt' : cap.toNat < required.toNat := UInt64.lt_iff_toNat_lt.mp hlt
      have hdouble : (cap * 2).toNat = cap.toNat * 2 := by
        rw [UInt64.toNat_mul]
        change cap.toNat * 2 % 2 ^ 64 = cap.toNat * 2
        unfold sizeMax at hreq
        omega
      obtain ⟨cap', hrun, hle, hmono⟩ := ih (cap * 2) (by
        rw [hdouble, Nat.mul_assoc, ← Nat.pow_succ']
        exact hcap)
      refine ⟨cap', by rw [growLoop, if_pos hlt, hrun], hle, ?_⟩
      rw [UInt64.le_iff_toNat_le] at hmono ⊢
      omega
    · exact ⟨cap, by rw [growLoop, if_neg hlt], UInt64.not_lt.mp hlt, UInt64.le_refl cap⟩

section Operations

variable {σ : Type} {heap : Allocator σ} {content : List UInt8} {sb : Sb}

/-- The object starts with the content. -/
theorem Sb.Holds.starts (hsb : sb.Holds content) : content <+: sb.data :=
  (List.prefix_append content [0]).trans hsb.stored

/-- The text of a builder as a C string. -/
theorem Sb.Holds.toCStr (hsb : sb.Holds content) (hnul : (0 : UInt8) ∉ content) :
    (CStr.ofBytes sb.data).bytes = content := by
  obtain ⟨rest, hrest⟩ := hsb.stored
  change sb.data.takeWhile (· ≠ 0) = content
  have hall : ∀ b ∈ content, decide (b ≠ 0) = true := fun b hb =>
    decide_eq_true fun hzero => hnul (hzero ▸ hb)
  rw [← hrest, List.append_assoc, List.takeWhile_append_of_pos hall]
  exact List.append_nil content

/-- The length of a builder that grows by `n`. -/
theorem Sb.Holds.toNat_len_add (hsb : sb.Holds content) {n : UInt64}
    (hfit : content.length + n.toNat + 1 ≤ sizeMax / 2) :
    (sb.len + n).toNat = content.length + n.toNat := by
  rw [UInt64.toNat_add, hsb.len]
  unfold sizeMax at hfit
  omega

/-- A text stored behind the content, in a builder with room for it. -/
theorem Sb.Holds.extend (hsb : sb.Holds content) {text data : List UInt8} {n : UInt64}
    (hn : text.length = n.toNat) (hfit : content.length + n.toNat + 1 ≤ sizeMax / 2)
    (hroom : content.length + n.toNat < sb.cap.toNat) (hsize : data.length = sb.data.length)
    (hstored : content ++ text ++ [0] <+: data) :
    Sb.Holds (content ++ text) { sb with data := data, len := sb.len + n } where
  size := hsize.trans hsb.size
  len := by rw [List.length_append, hn, hsb.toNat_len_add hfit]
  room := by
    rw [UInt64.lt_iff_toNat_lt, hsb.toNat_len_add hfit]
    exact hroom
  stored := hstored

theorem sbInit_holds (hheap : heap.Grants) {cap : UInt64} (hcap : 0 < cap) :
    YieldsSome (Sb.Holds []) (sbInit heap cap) := by
  have hpos : 0 < cap.toNat := UInt64.lt_iff_toNat_lt.mp hcap
  have hzeros : List.replicate cap.toNat (0 : UInt8) = 0 :: List.replicate (cap.toNat - 1) 0 := by
    rw [← List.replicate_succ, Nat.sub_add_cancel hpos]
  refine (yields_calloc hheap cap.toNat).bind fun data hdata => ?_
  subst hdata
  exact yieldsSome_pure
    { size := List.length_replicate
      len := rfl
      room := hcap
      stored := ⟨_, hzeros.symm⟩ }

/-- Room for `extra` bytes and the NUL behind them. -/
theorem sbReserve_holds (hheap : heap.Grants) (hsb : sb.Holds content) {extra : UInt64}
    (hfit : content.length + extra.toNat + 1 ≤ sizeMax / 2) :
    YieldsSome (fun sb' => sb'.Holds content ∧ content.length + extra.toNat < sb'.cap.toNat)
      (sbReserve heap sb extra) := by
  have hrequired : (sb.len + extra + 1).toNat = content.length + extra.toNat + 1 := by
    rw [UInt64.toNat_add, hsb.toNat_len_add hfit]
    change (content.length + extra.toNat + 1) % 2 ^ 64 = _
    unfold sizeMax at hfit
    omega
  have hcap : 0 < sb.cap.toNat := by
    have := UInt64.lt_iff_toNat_lt.mp hsb.room
    omega
  unfold sbReserve
  by_cases henough : sb.len + extra + 1 ≤ sb.cap
  · rw [if_pos henough]
    rw [UInt64.le_iff_toNat_le, hrequired] at henough
    exact yieldsSome_pure ⟨hsb, by omega⟩
  · have hgrow := growLoop_ends (hrequired ▸ hfit) 64 sb.cap (by
      rw [hrequired]
      unfold sizeMax at hfit
      omega)
    obtain ⟨cap, hrun, hle, hmono⟩ := hgrow
    rw [UInt64.le_iff_toNat_le] at hle hmono
    simp only [if_neg henough, hrun]
    refine (yields_realloc hheap (hsb.size.trans_le hmono)).bind fun next hnext => ?_
    obtain ⟨hlen, hprefix⟩ := hnext
    have hroom : content.length + extra.toNat < cap.toNat := by omega
    refine yieldsSome_pure ⟨?_, hroom⟩
    exact
      { size := hlen
        len := hsb.len
        room := UInt64.lt_of_lt_of_le hsb.room (UInt64.le_iff_toNat_le.mpr hmono)
        stored := hsb.stored.trans hprefix }

theorem sbAppendn_holds (hheap : heap.Grants) (hsb : sb.Holds content) (text : List UInt8)
    (n : UInt64) (hread : n.toNat ≤ text.length)
    (hfit : content.length + n.toNat + 1 ≤ sizeMax / 2) :
    YieldsSome (Sb.Holds (content ++ text.take n.toNat)) (sbAppendn heap sb text n) := by
  have hn : (text.take n.toNat).length = n.toNat := by
    rw [List.length_take, Nat.min_eq_left hread]
  refine (sbReserve_holds hheap hsb hfit).bind fun sb hsb' => ?_
  obtain ⟨hsb, hroom⟩ := hsb'
  have hsize := hsb.size
  dsimp only
  rw [hsb.len]
  refine Yields.bind (yields_check (safe_memcpy hsb.starts hread (by omega))) fun data hdata => ?_
  obtain ⟨hsame, hcopied⟩ := hdata
  have hend : (sb.len + n).toNat = (content ++ text.take n.toNat).length := by
    rw [hsb.toNat_len_add hfit, List.length_append, hn]
  rw [hend]
  refine Yields.bind (yields_check (safe_terminate hcopied ?_)) fun data' hdata' => ?_
  · rw [List.length_append, hn]
    omega
  · exact yieldsSome_pure (hsb.extend hn hfit hroom (hdata'.1.trans hsame) hdata'.2)

theorem sbAppendf_holds (hheap : heap.Grants) (hsb : sb.Holds content) {text : List UInt8}
    (hint : text.length ≤ intMax) (hfit : content.length + text.length + 1 ≤ sizeMax / 2) :
    YieldsSome (Sb.Holds (content ++ text)) (sbAppendf heap sb text) := by
  have hneed : vsnprintf text [] 0 0 = .ok (text.length, []) := by
    rw [vsnprintf, if_neg (by omega), if_pos rfl]
  have hn : text.length = (UInt64.ofNat text.length).toNat := (toNat_ofNat_of_le (by omega)).symm
  rw [hn] at hfit
  unfold sbAppendf
  refine Yields.bind (yields_check ⟨_, hneed, rfl⟩) fun r hr => ?_
  subst hr
  simp only [Int.toNat_natCast]
  rw [if_neg (by omega)]
  refine (sbReserve_holds hheap hsb hfit).bind fun sb hsb' => ?_
  obtain ⟨hsb, hroom⟩ := hsb'
  have hsize := hsb.size
  have hleft : (sb.cap - sb.len).toNat = sb.cap.toNat - content.length := by
    rw [UInt64.toNat_sub_of_le _ _ (UInt64.le_of_lt hsb.room), hsb.len]
  dsimp only
  rw [hsb.len]
  refine Yields.bind (yields_check (safe_vsnprintf hsb.starts hint (by omega) (by omega)))
    fun r hr => ?_
  exact yieldsSome_pure (hsb.extend hn hfit hroom hr.1 hr.2)

/-- A text whose length is no `int` is refused. -/
theorem sbAppendf_refused (sb : Sb) {text : List UInt8} (hint : intMax < text.length) :
    Yields (fun r => r = none) (sbAppendf heap sb text) := by
  have hneed : vsnprintf text [] 0 0 = .ok (-1, []) := by rw [vsnprintf, if_pos hint]
  unfold sbAppendf
  refine Yields.bind (yields_check ⟨_, hneed, rfl⟩) fun r hr => ?_
  subst hr
  exact yields_pure rfl

end Operations

/-! ## Sequences of operations -/

/-- A call of one of the two operations. At the pointer of `zereh_sb_appendn` there are `n`
    bytes. -/
inductive SbOp where
  | appendn (text : List UInt8) (n : UInt64) (readable : n.toNat ≤ text.length)
  | appendf (text : List UInt8)

/-- What the call returns. -/
def SbOp.rc : SbOp → Int
  | .appendn .. => 0
  | .appendf text => if intMax < text.length then -1 else 0

/-- What the call appends. -/
def SbOp.text : SbOp → List UInt8
  | .appendn text n _ => text.take n.toNat
  | .appendf text => if intMax < text.length then [] else text

/-- The concatenation of everything appended. -/
def appended (ops : List SbOp) : List UInt8 := ops.flatMap SbOp.text

section Runs

variable {σ : Type} (heap : Allocator σ)

/-- The call: what it returns, and the builder after it. -/
def SbOp.call (sb : Sb) (op : SbOp) : Run σ (Int × Sb) := do
  let r ← match op with
    | .appendn text n _ => sbAppendn heap sb text n
    | .appendf text => sbAppendf heap sb text
  match r with
  | some sb' => pure (0, sb')
  | none => pure (-1, sb)

/-- The calls in a row. -/
def sbRun : List SbOp → Sb → Run σ (List Int × Sb)
  | [], sb => pure ([], sb)
  | op :: ops, sb => do
    let (rc, sb) ← op.call heap sb
    let (rcs, sb) ← sbRun ops sb
    pure (rc :: rcs, sb)

/-- The calls in a row on a new builder. -/
def sbSession (cap : UInt64) (ops : List SbOp) : Run σ (Option (List Int × Sb)) := do
  let some sb ← sbInit heap cap | pure none
  let r ← sbRun heap ops sb
  pure (some r)

variable {heap} {content : List UInt8} {sb : Sb}

theorem SbOp.call_holds (hheap : heap.Grants) (hsb : sb.Holds content) (op : SbOp)
    (hfit : content.length + op.text.length + 1 ≤ sizeMax / 2) :
    Yields (fun r => r.1 = op.rc ∧ r.2.Holds (content ++ op.text)) (op.call heap sb) := by
  cases op with
  | appendn text n readable =>
    have hlen : (SbOp.appendn text n readable).text.length = n.toNat := by
      rw [SbOp.text, List.length_take, Nat.min_eq_left readable]
    refine (sbAppendn_holds hheap hsb text n readable (hlen ▸ hfit)).bind fun sb' hsb' => ?_
    exact yields_pure ⟨rfl, hsb'⟩
  | appendf text =>
    simp only [SbOp.text] at hfit
    simp only [SbOp.rc, SbOp.text]
    split_ifs at hfit ⊢ with hint
    · refine Yields.bind (sbAppendf_refused sb hint) fun r hr => ?_
      subst hr
      rw [List.append_nil]
      exact yields_pure ⟨rfl, hsb⟩
    · refine (sbAppendf_holds hheap hsb (Nat.not_lt.mp hint) hfit).bind fun sb' hsb' => ?_
      exact yields_pure ⟨rfl, hsb'⟩

theorem sbRun_holds (hheap : heap.Grants) (ops : List SbOp) (hsb : sb.Holds content)
    (hfit : content.length + (appended ops).length + 1 ≤ sizeMax / 2) :
    Yields (fun r => r.1 = ops.map SbOp.rc ∧ r.2.Holds (content ++ appended ops))
      (sbRun heap ops sb) := by
  induction ops generalizing content sb with
  | nil =>
    refine yields_pure ⟨rfl, ?_⟩
    rw [show appended [] = [] from rfl, List.append_nil]
    exact hsb
  | cons op ops ih =>
    have happended : appended (op :: ops) = op.text ++ appended ops := List.flatMap_cons
    rw [happended, List.length_append] at hfit
    rw [happended, ← List.append_assoc]
    refine Yields.bind (op.call_holds hheap hsb (by omega)) fun r hr => ?_
    obtain ⟨hrc, hsb'⟩ := hr
    refine Yields.bind (ih hsb' (by rw [List.length_append]; omega)) fun r' hr' => ?_
    refine yields_pure ⟨?_, hr'.2⟩
    rw [List.map_cons, hrc, hr'.1]

theorem sbSession_holds (hheap : heap.Grants) {cap : UInt64} (hcap : 0 < cap) (ops : List SbOp)
    (hfit : (appended ops).length + 1 ≤ sizeMax / 2) :
    Yields (fun r => ∃ sb, r = some (ops.map SbOp.rc, sb) ∧ sb.Holds (appended ops))
      (sbSession heap cap ops) := by
  refine (sbInit_holds hheap hcap).bind fun sb hsb => ?_
  refine Yields.bind (sbRun_holds hheap ops hsb (by rw [List.length_nil]; omega)) fun r hr => ?_
  obtain ⟨rcs, sb'⟩ := r
  obtain ⟨rfl, hsb'⟩ := hr
  exact yields_pure ⟨sb', rfl, hsb'⟩

end Runs

/-! ## Escaping -/

section Callers

variable {σ : Type} {heap : Allocator σ} {content : List UInt8} {sb : Sb}

theorem escapeStep_holds (hheap : heap.Grants) (hsb : sb.Holds content) (c : UInt8)
    (hfit : content.length + (escapeByte c).length + 1 ≤ sizeMax / 2) :
    YieldsSome (Sb.Holds (content ++ escapeByte c)) (escapeStep heap sb c) := by
  unfold escapeByte at hfit ⊢
  unfold escapeStep
  split_ifs at hfit ⊢
  · exact sbAppendf_holds hheap hsb (Nat.le_of_ble_eq_true rfl) hfit
  · exact sbAppendn_holds hheap hsb [92, 110] 2 (by decide) hfit
  · exact sbAppendn_holds hheap hsb [92, 114] 2 (by decide) hfit
  · exact sbAppendn_holds hheap hsb [92, 116] 2 (by decide) hfit
  · exact sbAppendn_holds hheap hsb [c] 1 (Nat.le_refl 1) hfit

theorem escapeLoop_holds (hheap : heap.Grants) (text : List UInt8) (hsb : sb.Holds content)
    (hfit : content.length + (escapeCString text).length + 1 ≤ sizeMax / 2) :
    YieldsSome (Sb.Holds (content ++ escapeCString text)) (escapeLoop heap text sb) := by
  induction text generalizing content sb with
  | nil =>
    refine yieldsSome_pure ?_
    rw [show escapeCString [] = [] from rfl, List.append_nil]
    exact hsb
  | cons c cs ih =>
    have hcons : escapeCString (c :: cs) = escapeByte c ++ escapeCString cs := List.flatMap_cons
    rw [hcons, List.length_append] at hfit
    rw [hcons, ← List.append_assoc]
    refine (escapeStep_holds hheap hsb c (by omega)).bind fun sb' hsb' => ?_
    exact ih hsb' (by rw [List.length_append]; omega)

theorem zero_not_mem_escapeCString {text : List UInt8} (h : (0 : UInt8) ∉ text) :
    (0 : UInt8) ∉ escapeCString text := by
  intro hmem
  obtain ⟨c, hc, hzero⟩ := List.mem_flatMap.mp hmem
  have hne : c ≠ 0 := fun h0 => h (h0 ▸ hc)
  unfold escapeByte at hzero
  split_ifs at hzero <;> simp [hne.symm] at hzero

/-- `zereh_escape_c_string` returns what `escapeCString` says. -/
theorem zerehEscapeCString_eq (hheap : heap.Grants) (text : CStr)
    (hfit : (escapeCString text.bytes).length + 1 ≤ sizeMax / 2) :
    YieldsSome (fun out => out.bytes = escapeCString text.bytes)
      (zerehEscapeCString heap (some text)) := by
  refine (sbInit_holds hheap (by decide)).bind fun sb hsb => ?_
  refine (escapeLoop_holds hheap text.bytes hsb (by rw [List.length_nil]; omega)).bind
    fun sb' hsb' => ?_
  exact yieldsSome_pure (hsb'.toCStr (zero_not_mem_escapeCString text.nulFree))

/-! ## Replacing -/

theorem replaceAllLoop_holds (hheap : heap.Grants) {token : CStr} (htoken : token.bytes ≠ [])
    (replacement : CStr) {n : Nat} (cursor : List UInt8) (hn : cursor.length < n)
    (hsb : sb.Holds content)
    (hfit : content.length + (replaceAll token.bytes replacement.bytes cursor).length + 1 ≤
      sizeMax / 2) :
    YieldsSome (Sb.Holds (content ++ replaceAll token.bytes replacement.bytes cursor))
      (replaceAllLoop heap token replacement n cursor sb) := by
  induction n generalizing cursor content sb with
  | zero => omega
  | succ n ih =>
    rw [replaceAll_round htoken] at hfit ⊢
    rw [replaceAllLoop]
    cases hstr : strstr token.bytes cursor with
    | none =>
      rw [hstr] at hfit
      dsimp only at hfit ⊢
      have hlen := toNat_ofNat_of_le (n := cursor.length) (by omega)
      have happend := sbAppendn_holds hheap hsb cursor (UInt64.ofNat cursor.length) (le_of_eq hlen)
        (by rw [hlen]; exact hfit)
      rw [hlen, List.take_length] at happend
      exact happend
    | some hit =>
      rw [hstr] at hfit
      obtain ⟨hle, hprefix⟩ := strstr_some hstr
      have hpos := List.length_pos_iff.mpr htoken
      have hbehind := hprefix.length_le
      rw [List.length_drop] at hbehind
      simp only [List.length_append, List.length_take, Nat.min_eq_left hle] at hfit
      have hhit := toNat_ofNat_of_le (n := hit) (by omega)
      have hrep := toNat_ofNat_of_le (n := replacement.len) (by unfold CStr.len; omega)
      dsimp only
      refine (sbAppendn_holds hheap hsb cursor _ (hhit.trans_le hle) (by rw [hhit]; omega)).bind
        fun sb₁ hsb₁ => ?_
      rw [hhit] at hsb₁
      have hlen₁ : (content ++ cursor.take hit).length = content.length + hit := by
        rw [List.length_append, List.length_take, Nat.min_eq_left hle]
      refine (sbAppendn_holds hheap hsb₁ replacement.bytes _ (le_of_eq hrep)
        (by rw [hrep, hlen₁]; unfold CStr.len; omega)).bind fun sb₂ hsb₂ => ?_
      rw [hrep, CStr.len, List.take_length] at hsb₂
      have hrest := ih (cursor.drop (hit + token.bytes.length))
        (by rw [List.length_drop]; omega) hsb₂ (by rw [List.length_append, hlen₁]; omega)
      rw [List.append_assoc content, List.append_assoc content] at hrest
      exact hrest

theorem zerehReplaceAll_eq (hheap : heap.Grants) {token : CStr} (htoken : token.bytes ≠ [])
    (input replacement : CStr) (hcap : 0 < replaceCap input replacement)
    (hfit : (replaceAll token.bytes replacement.bytes input.bytes).length + 1 ≤ sizeMax / 2) :
    YieldsSome (fun out => out.bytes = replaceAll token.bytes replacement.bytes input.bytes)
      (zerehReplaceAll heap (some input) (some token) (some replacement)) := by
  have hlen : token.len ≠ 0 := fun h => htoken (List.length_eq_zero_iff.mp h)
  have hnul : (0 : UInt8) ∉ replaceAll token.bytes replacement.bytes input.bytes := fun h =>
    (mem_replaceAll htoken h).elim replacement.nulFree input.nulFree
  unfold zerehReplaceAll
  dsimp only
  rw [if_neg hlen]
  refine (sbInit_holds hheap hcap).bind fun sb hsb => ?_
  refine (replaceAllLoop_holds hheap htoken replacement input.bytes (Nat.lt_succ_self _) hsb
    (by rw [List.length_nil]; omega)).bind fun sb' hsb' => ?_
  exact yieldsSome_pure (hsb'.toCStr hnul)

end Callers

/-! ## The builder and its callers -/

/-- **The string builder and `zereh_replace_all` are correct.** With allocations that succeed,
    every sequence of calls on a builder of positive capacity returns, as long as the text and its
    NUL stay within `SIZE_MAX / 2`. After each call `len < cap` and the object holds everything
    appended with a NUL behind it; a call fails only for a formatted text that is longer than an
    `int` can say, and appends nothing then. On the same conditions `zereh_replace_all` returns for
    every input, replacement and token that is not empty, and joins the pieces of the input between
    the leftmost occurrences of the token with the replacement. -/
theorem builder_correct {σ : Type} (heap : Allocator σ) (hheap : heap.Grants) :
    (∀ (cap : UInt64) (ops : List SbOp), 0 < cap → (appended ops).length + 1 ≤ sizeMax / 2 →
      ∀ calls, calls <+: ops →
        Yields (fun r => ∃ sb, r = some (calls.map SbOp.rc, sb) ∧ sb.Holds (appended calls))
          (sbSession heap cap calls)) ∧
    ∀ input token replacement : CStr, token.len ≠ 0 →
      ∃ ps, Pieces token.bytes input.bytes ps ∧
        (∀ qs, Pieces token.bytes input.bytes qs → qs = ps) ∧
        (0 < replaceCap input replacement →
          (replacement.bytes.intercalate ps).length + 1 ≤ sizeMax / 2 →
          Yields (fun r => ∃ out, r = some out ∧ out.bytes = replacement.bytes.intercalate ps)
            (zerehReplaceAll heap (some input) (some token) (some replacement))) := by
  constructor
  · intro cap ops hcap hfit calls hcalls
    obtain ⟨later, rfl⟩ := hcalls
    rw [appended, List.flatMap_append, List.length_append] at hfit
    exact sbSession_holds hheap hcap calls (by unfold appended; omega)
  · intro input token replacement hlen
    have htoken : token.bytes ≠ [] := fun h => hlen (List.length_eq_zero_iff.mpr h)
    obtain ⟨ps, hps⟩ := exists_pieces htoken input.bytes
    refine ⟨ps, hps, fun qs hqs => hqs.unique hps, fun hcap hfit => ?_⟩
    rw [← hps.replaceAll_eq htoken] at hfit ⊢
    exact zerehReplaceAll_eq hheap htoken input replacement hcap hfit

/-- An allocator that grants everything, with junk in the memory. -/
def junkHeap : Allocator Unit where
  malloc n s := (some (List.replicate n 170), s)

theorem junkHeap_grants : junkHeap.Grants := fun n s =>
  ⟨List.replicate n 170, s, rfl, List.length_replicate⟩

/-- `ab` out of `abc`, and the format that prints `d`. -/
def sampleOps : List SbOp := [.appendn [97, 98, 99] 2 (by decide), .appendf [100]]

/-- A builder of one byte grows to hold `abd`; `aa` in `aaa` is replaced once by `aab`. -/
theorem builder_correct_sample :
    (∃ sb s, sbSession junkHeap 1 sampleOps () = .ok (some ([0, 0], sb), s) ∧
      sb.Holds [97, 98, 100]) ∧
    ∃ out s, zerehReplaceAll junkHeap (some (CStr.ofBytes [97, 97, 97]))
        (some (CStr.ofBytes [97, 97])) (some (CStr.ofBytes [97, 97, 98])) () = .ok (some out, s) ∧
      out.bytes = [97, 97, 98, 97] := by
  obtain ⟨hruns, hreplace⟩ := builder_correct junkHeap junkHeap_grants
  constructor
  · obtain ⟨r, s, hrun, sb, rfl, hsb⟩ :=
      hruns 1 sampleOps (by decide) (by decide) sampleOps (List.prefix_refl _) ()
    exact ⟨sb, s, hrun, hsb⟩
  · obtain ⟨ps, -, hunique, hyields⟩ := hreplace (CStr.ofBytes [97, 97, 97])
      (CStr.ofBytes [97, 97]) (CStr.ofBytes [97, 97, 98]) (by decide)
    have hps : Pieces (CStr.ofBytes [97, 97]).bytes (CStr.ofBytes [97, 97, 97]).bytes [[], [97]] :=
      .cut rfl (fun k hk => absurd hk (Nat.not_lt_zero k)) (.last (by decide))
    obtain rfl := hunique _ hps
    obtain ⟨r, s, hrun, out, rfl, hout⟩ := hyields (by decide) (by decide) ()
    exact ⟨out, s, hrun, hout⟩

end Zereh.Control
