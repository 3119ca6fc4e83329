import RouteFlow.Lib.Bytes
import RouteFlow.Lib.Source
import RouteFlow.Protocol

/-!
# Messages of the FPM interface

`fpm.h` and `FPMServer::read_fpm_msg`, which collects one message from a socket. The message begins with
its header, and the buffer is as long as the longest message.
-/

namespace RouteFlow.Fpm

open Bytes

/-! ## fpm.h -/

def FPM_MAX_MSG_LEN : Nat := 4096
def FPM_MSG_TYPE_NONE : Byte := 0
def FPM_MSG_ALIGNTO : Nat := 4

/-- The size of `fpm_msg_hdr_t`: the version, the type and two bytes for the length. -/
def FPM_MSG_HDR_SIZE : Nat := 4

/-- `fpm_msg_align`: the next multiple of four. -/
def fpmMsgAlign (len : Nat) : Nat := (len + FPM_MSG_ALIGNTO - 1) / FPM_MSG_ALIGNTO * FPM_MSG_ALIGNTO

def FPM_MSG_HDR_LEN : Nat := fpmMsgAlign FPM_MSG_HDR_SIZE

/-- `hdr` points to the beginning of the buffer. -/
def msgType (buf : List Byte) : Byte := buf.getD 1 0

def fpmMsgLen (buf : List Byte) : Nat := ofBe ((buf.drop 2).take 2)

def fpmMsgHdrOk (buf : List Byte) : Bool :=
  if msgType buf = FPM_MSG_TYPE_NONE then false
  else if fpmMsgLen buf < FPM_MSG_HDR_LEN || FPM_MAX_MSG_LEN < fpmMsgLen buf then false
  else fpmMsgAlign (fpmMsgLen buf) == fpmMsgLen buf

def fpmMsgOk (buf : List Byte) (len : Nat) : Bool :=
  if len < FPM_MSG_HDR_LEN then false
  else if !fpmMsgHdrOk buf then false
  else decide (fpmMsgLen buf ≤ len)

/-! ## read_fpm_msg -/

/-- What `read_fpm_msg` ends with. -/
inductive ReadResult where
  | msg (buf : List Byte)
  | null
  | assertFails
deriving DecidableEq

/-- The loop, with what is in the buffer before `cur`. The header is read first. -/
def readLoop (bufLen : Nat) (buf : List Byte) (sock : Source Byte) : ReadResult × Source Byte :=
  let haveLen := buf.length
  let malformedMsg := decide (haveLen < FPM_MSG_HDR_LEN)
  let needLen : Int := if malformedMsg then FPM_MSG_HDR_LEN - haveLen else fpmMsgLen buf - haveLen
  if !malformedMsg && !decide (0 ≤ needLen ∧ needLen < bufLen - haveLen) then (.assertFails, sock)
  else if !malformedMsg && needLen == 0 then (.msg buf, sock)
  else
    let got := sock.read needLen.toNat
    if got.1 = [] then (.null, got.2)
    else if got.1.length < needLen then readLoop bufLen (buf ++ got.1) got.2
    else if got.1.length ≠ needLen then (.assertFails, got.2)
    else if !malformedMsg then (.msg (buf ++ got.1), got.2)
    else if !fpmMsgOk (buf ++ got.1) bufLen then (.null, got.2)
    else readLoop bufLen (buf ++ got.1) got.2
termination_by sock.incoming.length
decreasing_by all_goals exact sock.length_read_lt _ (by assumption)

/-- `FPMServer::read_fpm_msg`, with an empty buffer. -/
def readFpmMsg (bufLen : Nat) (sock : Source Byte) : ReadResult × Source Byte := readLoop bufLen [] sock

/-! ## One round -/

section Rounds

variable {bufLen : Nat} {buf : List Byte} (sock : Source Byte)

theorem readLoop_header (h : buf.length < 4) : readLoop bufLen buf sock =
    let got := sock.read (4 - buf.length)
    if got.1 = [] then (.null, got.2)
    else if got.1.length < 4 - buf.length then readLoop bufLen (buf ++ got.1) got.2
    else if fpmMsgOk (buf ++ got.1) bufLen then readLoop bufLen (buf ++ got.1) got.2
    else (.null, got.2) := by
  have hlen : FPM_MSG_HDR_LEN = 4 := rfl
  have hneed : ((4 : Int) - buf.length).toNat = 4 - buf.length := by omega
  have hle := sock.length_read_le (4 - buf.length)
  rw [readLoop]
  simp only [hlen, h, decide_true, Bool.not_true, Bool.false_and, if_true, Nat.cast_ofNat, hneed]
  have hlt : ((sock.read (4 - buf.length)).1.length : Int) < 4 - buf.length ↔
      (sock.read (4 - buf.length)).1.length < 4 - buf.length := by omega
  simp only [hlt]
  by_cases hnil : (sock.read (4 - buf.length)).1 = []
  · simp [hnil]
  · by_cases hshort : (sock.read (4 - buf.length)).1.length < 4 - buf.length
    · simp [hnil, hshort]
    · have heq : ((sock.read (4 - buf.length)).1.length : Int) = 4 - buf.length := by omega
      simp only [hnil, hshort, heq, if_false, ne_eq, not_true_eq_false, Bool.false_eq_true]
      cases fpmMsgOk (buf ++ (sock.read (4 - buf.length)).1) bufLen <;> simp

theorem readLoop_rest (h : 4 ≤ buf.length) (hle : buf.length ≤ fpmMsgLen buf) (hlt : fpmMsgLen buf < bufLen) :
    readLoop bufLen buf sock =
      if fpmMsgLen buf = buf.length then (.msg buf, sock)
      else
        let got := sock.read (fpmMsgLen buf - buf.length)
        if got.1 = [] then (.null, got.2)
        else if got.1.length < fpmMsgLen buf - buf.length then readLoop bufLen (buf ++ got.1) got.2
        else (.msg (buf ++ got.1), got.2) := by
  have hlen : ¬ buf.length < FPM_MSG_HDR_LEN := Nat.not_lt.mpr h
  have hneed : ((fpmMsgLen buf : Int) - buf.length).toNat = fpmMsgLen buf - buf.length := by omega
  have hassert : (0 : Int) ≤ fpmMsgLen buf - buf.length ∧
      (fpmMsgLen buf : Int) - buf.length < bufLen - buf.length := by omega
  have hzero : ((fpmMsgLen buf : Int) - buf.length == 0) = decide (fpmMsgLen buf = buf.length) := by
    rw [Bool.eq_iff_iff, beq_iff_eq, decide_eq_true_iff]
    omega
  rw [readLoop]
  simp only [hlen, decide_false, Bool.not_false, Bool.true_and, hassert, and_self, decide_true, Bool.not_true,
    Bool.false_eq_true, if_false, hneed, hzero, decide_eq_true_iff]
  by_cases hdone : fpmMsgLen buf = buf.length
  · simp [hdone]
  · have hread := sock.length_read_le (fpmMsgLen buf - buf.length)
    have hshort : ((sock.read (fpmMsgLen buf - buf.length)).1.length : Int) < fpmMsgLen buf - buf.length ↔
        (sock.read (fpmMsgLen buf - buf.length)).1.length < fpmMsgLen buf - buf.length := by omega
    simp only [hdone, if_false, hshort]
    split
    · rfl
    · split
      · rfl
      · rename_i hge
        rw [if_neg (by omega), if_true]

/-- The assertion wants the rest to be shorter than the space behind `cur`. -/
theorem readLoop_assert (h : 4 ≤ buf.length) (hge : bufLen ≤ fpmMsgLen buf) :
    readLoop bufLen buf sock = (.assertFails, sock) := by
  have hlen : ¬ buf.length < FPM_MSG_HDR_LEN := Nat.not_lt.mpr h
  have hassert : ¬ ((0 : Int) ≤ fpmMsgLen buf - buf.length ∧
      (fpmMsgLen buf : Int) - buf.length < bufLen - buf.length) := by omega
  rw [readLoop]
  simp only [hlen, decide_false, Bool.not_false, Bool.true_and, hassert, Bool.false_eq_true,
    if_false, if_true]

end Rounds

/-! ## All rounds -/

section Runs

variable {bufLen : Nat}

theorem fpmMsgLen_append {buf : List Byte} (h : 4 ≤ buf.length) (more : List Byte) :
    fpmMsgLen (buf ++ more) = fpmMsgLen buf := by
  unfold fpmMsgLen
  rw [List.drop_append_of_le_length (by omega), List.take_append_of_le_length (by simp; omega)]

theorem fpmMsgLen_take (stream : List Byte) {n : Nat} (h : 4 ≤ n) :
    fpmMsgLen (stream.take n) = fpmMsgLen stream := by
  unfold fpmMsgLen
  rw [List.drop_take, List.take_take, min_eq_left (by omega)]

theorem readLoop_collects_header (bufLen : Nat) (buf : List Byte) (sock : Source Byte) (h : buf.length < 4) :
    ∃ sizes, readLoop bufLen buf sock =
      if (buf ++ sock.incoming).length < 4 then (.null, ⟨[], sizes⟩)
      else if fpmMsgOk ((buf ++ sock.incoming).take 4) bufLen then
        readLoop bufLen ((buf ++ sock.incoming).take 4) ⟨(buf ++ sock.incoming).drop 4, sizes⟩
      else (.null, ⟨(buf ++ sock.incoming).drop 4, sizes⟩) := by
  induction hn : sock.incoming.length using Nat.strong_induction_on generalizing buf sock with
  | _ n ih =>
    have hall := sock.read_append (4 - buf.length)
    have hread := sock.length_read_le (4 - buf.length)
    rw [readLoop_header sock h]
    generalize hgot : sock.read (4 - buf.length) = got at hall hread ⊢
    obtain ⟨piece, incoming, sizes⟩ := got
    dsimp only at hall hread ⊢
    by_cases hnil : piece = []
    · -- The stream has ended before the header is complete.
      have hend : sock.incoming = [] :=
        (sock.read_eq_nil (4 - buf.length) (by omega)).mp (by rw [hgot]; exact hnil)
      obtain rfl : incoming = [] := by
        rw [hnil, hend] at hall
        exact hall
      exact ⟨sizes, by simp [hnil, hend, h]⟩
    · have hfull : buf ++ sock.incoming = (buf ++ piece) ++ incoming := by rw [← hall, List.append_assoc]
      rw [if_neg hnil, hfull]
      by_cases hshort : piece.length < 4 - buf.length
      · have hless := sock.length_read_lt (4 - buf.length) (by rw [hgot]; exact hnil)
        rw [hgot, hn] at hless
        rw [if_pos hshort]
        exact ih _ hless (buf ++ piece) ⟨incoming, sizes⟩ (by rw [List.length_append]; omega) rfl
      · have hfour : (buf ++ piece).length = 4 := by
          rw [List.length_append]
          omega
        have hlong : ¬ (buf ++ piece ++ incoming).length < 4 := by
          rw [List.length_append, hfour]
          omega
        refine ⟨sizes, ?_⟩
        rw [if_neg hshort, if_neg hlong, List.take_left' hfour, List.drop_left' hfour]

theorem readLoop_collects_rest (buf : List Byte) (sock : Source Byte) (h : 4 ≤ buf.length)
    (hle : buf.length ≤ fpmMsgLen buf) (hlt : fpmMsgLen buf < bufLen) :
    ∃ sizes, readLoop bufLen buf sock =
      (if fpmMsgLen buf ≤ (buf ++ sock.incoming).length then .msg
        ((buf ++ sock.incoming).take (fpmMsgLen buf))
        else .null, ⟨(buf ++ sock.incoming).drop (fpmMsgLen buf), sizes⟩) := by
  induction hn : sock.incoming.length using Nat.strong_induction_on generalizing buf sock with
  | _ n ih =>
    rw [readLoop_rest sock h hle hlt]
    by_cases hdone : fpmMsgLen buf = buf.length
    · refine ⟨sock.sizes, ?_⟩
      rw [if_pos hdone, hdone, if_pos (by simp), List.take_left, List.drop_left]
    · have hall := sock.read_append (fpmMsgLen buf - buf.length)
      have hread := sock.length_read_le (fpmMsgLen buf - buf.length)
      rw [if_neg hdone]
      generalize hgot : sock.read (fpmMsgLen buf - buf.length) = got at hall hread ⊢
      obtain ⟨piece, incoming, sizes⟩ := got
      dsimp only at hall hread ⊢
      by_cases hnil : piece = []
      · -- The stream has ended before the message is complete.
        have hend : sock.incoming = [] :=
          (sock.read_eq_nil (fpmMsgLen buf - buf.length) (by omega)).mp (by rw [hgot]; exact hnil)
        obtain rfl : incoming = [] := by
          rw [hnil, hend] at hall
          exact hall
        refine ⟨sizes, ?_⟩
        rw [if_pos hnil, hend, List.append_nil, if_neg (by omega), List.drop_eq_nil_of_le hle]
      · have hfull : buf ++ sock.incoming = (buf ++ piece) ++ incoming := by rw [← hall, List.append_assoc]
        rw [if_neg hnil, hfull]
        by_cases hshort : piece.length < fpmMsgLen buf - buf.length
        · have hless := sock.length_read_lt (fpmMsgLen buf - buf.length) (by rw [hgot]; exact hnil)
          rw [hgot, hn] at hless
          rw [if_pos hshort]
          have hsame := fpmMsgLen_append h piece
          have hmore := ih _ hless (buf ++ piece) ⟨incoming, sizes⟩ (by rw [List.length_append]; omega)
            (by rw [hsame, List.length_append]; omega) (by rw [hsame]; exact hlt) rfl
          rw [hsame] at hmore
          exact hmore
        · have hlen : (buf ++ piece).length = fpmMsgLen buf := by
            rw [List.length_append]
            omega
          refine ⟨sizes, ?_⟩
          rw [if_neg hshort, if_pos (by rw [List.length_append, hlen]; omega), List.take_left' hlen,
            List.drop_left' hlen]

end Runs

/-! ## Framing -/

/-- The stream begins with a header that `fpm_msg_ok` accepts. -/
def HeaderOk (stream : List Byte) : Prop :=
  4 ≤ stream.length ∧ fpmMsgOk (stream.take 4) FPM_MAX_MSG_LEN = true

instance (stream : List Byte) : Decidable (HeaderOk stream) := inferInstanceAs (Decidable (_ ∧ _))

/-- The first message is returned if it is there as a whole, and nothing else is. What is read is the
message, or the header if that is not accepted. -/
structure Framed (stream : List Byte) (sizes : List Nat) : Prop where
  result : (readFpmMsg FPM_MAX_MSG_LEN ⟨stream, sizes⟩).1 =
    if HeaderOk stream ∧ fpmMsgLen stream ≤ stream.length then .msg (stream.take (fpmMsgLen stream))
      else .null
  rest : (readFpmMsg FPM_MAX_MSG_LEN ⟨stream, sizes⟩).2.incoming =
    stream.drop (if HeaderOk stream then fpmMsgLen stream else FPM_MSG_HDR_LEN)

theorem fpmMsgOk_iff (buf : List Byte) (len : Nat) : fpmMsgOk buf len = true ↔
    FPM_MSG_HDR_LEN ≤ len ∧ msgType buf ≠ FPM_MSG_TYPE_NONE ∧
      (FPM_MSG_HDR_LEN ≤ fpmMsgLen buf ∧ fpmMsgLen buf ≤ FPM_MAX_MSG_LEN) ∧
      fpmMsgAlign (fpmMsgLen buf) = fpmMsgLen buf ∧ fpmMsgLen buf ≤ len := by
  simp [fpmMsgOk, fpmMsgHdrOk, and_assoc]

theorem HeaderOk.length {stream : List Byte} (h : HeaderOk stream) :
    4 ≤ fpmMsgLen stream ∧ fpmMsgLen stream ≤ FPM_MAX_MSG_LEN := by
  have hlen := ((fpmMsgOk_iff _ _).mp h.2).2.2.1
  rw [fpmMsgLen_take stream le_rfl] at hlen
  exact hlen

/-- Framing works for every stream and every way to split it, unless the message is of the largest length:
the assertion has no room for it. -/
theorem framed_iff (stream : List Byte) (sizes : List Nat) :
    Framed stream sizes ↔ ¬ (HeaderOk stream ∧ fpmMsgLen stream = FPM_MAX_MSG_LEN) := by
  obtain ⟨later, hread⟩ := readLoop_collects_header FPM_MAX_MSG_LEN [] ⟨stream, sizes⟩ (by simp)
  simp only [List.nil_append] at hread
  by_cases hok : HeaderOk stream
  · have hbounds := hok.length
    have htake : fpmMsgLen (stream.take 4) = fpmMsgLen stream := fpmMsgLen_take stream le_rfl
    have hfour : (stream.take 4).length = 4 := List.length_take_of_le hok.1
    rw [if_neg (by have := hok.1; omega), if_pos hok.2] at hread
    by_cases hmax : fpmMsgLen stream = FPM_MAX_MSG_LEN
    · -- The header is accepted and the assertion fails in the next round.
      rw [readLoop_assert _ hfour.ge (by rw [htake, hmax])] at hread
      refine iff_of_false (fun hframed => ?_) (fun hno => hno ⟨hok, hmax⟩)
      have hresult := hframed.result
      rw [readFpmMsg, hread] at hresult
      split at hresult <;> cases hresult
    · obtain ⟨last, hrest⟩ := readLoop_collects_rest (stream.take 4) ⟨stream.drop 4, later⟩ hfour.ge
        (by rw [hfour, htake]; exact hbounds.1) (by rw [htake]; exact lt_of_le_of_ne hbounds.2 hmax)
      rw [hrest] at hread
      simp only [List.take_append_drop, htake] at hread
      refine iff_of_true ⟨?_, ?_⟩ fun hno => hmax hno.2
      · rw [readFpmMsg, hread]
        simp only [hok, true_and]
      · rw [readFpmMsg, hread, if_pos hok]
  · have hnull : readLoop FPM_MAX_MSG_LEN [] ⟨stream, sizes⟩ = (.null, ⟨stream.drop 4, later⟩) := by
      rw [hread]
      by_cases hshort : stream.length < 4
      · rw [if_pos hshort, List.drop_eq_nil_of_le hshort.le]
      · rw [if_neg hshort, if_neg fun hmsg => hok ⟨by omega, hmsg⟩]
    refine iff_of_true ⟨?_, ?_⟩ fun hno => hok hno.1
    · rw [readFpmMsg, hnull, if_neg fun h => hok h.1]
    · rw [readFpmMsg, hnull, if_neg hok]
      rfl

/-- A message of 4096 bytes, of which the header has arrived in two pieces. -/
theorem largest_message_fails :
    let stream : List Byte := [1, 1, 0x10, 0x00]
    HeaderOk stream ∧ fpmMsgLen stream = 4096 ∧
      (readFpmMsg FPM_MAX_MSG_LEN ⟨stream, [3]⟩).1 = .assertFails ∧ ¬ Framed stream [3] := by
  intro stream
  have hok : HeaderOk stream := by decide
  have hfirst : readFpmMsg FPM_MAX_MSG_LEN ⟨stream, [3]⟩ = readLoop FPM_MAX_MSG_LEN [1, 1, 0x10]
    ⟨[0], []⟩ := by
    rw [readFpmMsg, readLoop_header _ (by decide)]
    rfl
  have hsecond : readLoop FPM_MAX_MSG_LEN [1, 1, 0x10] ⟨[0], []⟩ =
    readLoop FPM_MAX_MSG_LEN stream ⟨[], []⟩ := by
    rw [readLoop_header _ (by decide)]
    rfl
  have hresult : (readFpmMsg FPM_MAX_MSG_LEN ⟨stream, [3]⟩).1 = .assertFails := by
    rw [hfirst, hsecond, readLoop_assert _ (by decide) (by decide)]
  refine ⟨hok, by decide, hresult, fun hframed => ?_⟩
  have := hframed.result
  rw [hresult] at this
  split at this <;> cases this

end RouteFlow.Fpm
