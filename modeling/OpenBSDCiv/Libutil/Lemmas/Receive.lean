import Mathlib
import OpenBSDCiv.Libutil.Lemmas.Reads
import OpenBSDCiv.Libutil.Transport

namespace Libutil

open List Nat Msg
variable {imsgbuf : Imsgbuf}

namespace Transport

def streamBytes (pid : UInt32) (msgs : List Msg) : List UInt8 :=
  msgs.flatMap fun msg => msg.bytes pid

def msgFds (pos : Nat) : List Msg → List (Nat × Int)
  | [] => []
  | msg :: msgs =>
    if msg.fd ≥ 0 then
      (pos, msg.fd) :: msgFds (pos + msg.len) msgs
    else
      msgFds (pos + msg.len) msgs

theorem msgFds_append (pid : UInt32) (pos : Nat) (msgs msgs' : List Msg)
    : msgFds pos (msgs ++ msgs')
        = msgFds pos msgs ++ msgFds (pos + (streamBytes pid msgs).length) msgs' := by
  induction msgs generalizing pos with
  | nil => simp [msgFds, streamBytes]
  | cons msg msgs ih =>
    simp only [cons_append, msgFds, streamBytes, flatMap_cons, length_append,
      bytes_length, ← add_assoc]
    rw [ih]
    split <;> simp [streamBytes]

structure Inv (pid maxsize : UInt32) (msgs : List Msg) (s : Sender) : Prop where
  pid_eq : s.imsgbuf.pid = pid
  maxsize_eq : s.imsgbuf.maxsize = maxsize
  allowFdpass_eq : s.imsgbuf.allowFdpass = true
  queued : Queued s.imsgbuf.w.bufs.bufs
  bytes_eq : s.socket.stream ++ queueBytes s.imsgbuf.w.bufs.bufs = streamBytes pid msgs
  fds_eq : s.socket.fds ++ queueFds s.socket.stream.length s.imsgbuf.w.bufs.bufs = msgFds 0 msgs

section

variable {pid maxsize : UInt32} {msgs : List Msg} {s : Sender}

theorem ibuf_data (msg : Msg) : ibufData (msg.ibuf maxsize pid) = msg.bytes pid := by
  simp [ibufData, ibuf, ← bytes_length msg pid]

theorem ibuf_queued (msg : Msg) : (msg.ibuf maxsize pid).Wf ∧ 0 < ibufSize (msg.ibuf maxsize pid) := by
  refine ⟨⟨zero_le _, ?_⟩, ?_⟩
  . simp [ibuf, bytes_length]
  . simp [ibufSize, ibuf, len, imsgHeaderSize]

theorem queueFds_ibuf (pos : Nat) (msg : Msg) : queueFds pos [msg.ibuf maxsize pid] = msgFds pos [msg] := by
  simp only [queueFds, msgFds, ibuf, normFd]
  split
  . next h =>
    have hne : msg.fd ≠ -1 := by omega
    simp [hne]
  . simp

theorem inv_compose (h : Inv pid maxsize msgs s) (msg : Msg) (hfits : msg.Fits maxsize)
    : Inv pid maxsize (msgs ++ [msg]) (s.compose msg) := by
  have hcompose := imsgCompose_eq s.imsgbuf msg (by rw [h.maxsize_eq]; exact hfits)
  rw [h.pid_eq, h.maxsize_eq] at hcompose
  unfold Sender.compose
  rw [hcompose]
  refine ⟨rfl, rfl, h.allowFdpass_eq, ?_, ?_, ?_⟩
  . intro buf hbuf
    rcases mem_append.mp hbuf with hbuf | hbuf
    . exact h.queued buf hbuf
    . rw [mem_singleton.mp hbuf]
      apply ibuf_queued
  . simp only [queueBytes_append, queueBytes_cons, queueBytes_nil, append_nil, ibuf_data]
    rw [← append_assoc, h.bytes_eq]
    simp [streamBytes]
  . simp only [queueFds_append, queueFds_ibuf]
    rw [← append_assoc, h.fds_eq, ← length_append, h.bytes_eq, msgFds_append pid, zero_add]

variable (w : Msgbuf)

theorem queueFds_clearBuf0 (pos : Nat)
    : queueFds pos w.bufs.bufs
        = (msgbufWriteFd w).toList.map (fun fd => (pos, fd)) ++ queueFds pos (clearBuf0 w).bufs.bufs := by
  unfold msgbufWriteFd msgbufWriteIov clearBuf0
  cases hbufs : w.bufs.bufs with
  | nil => simp [msgbufWriteIov.go, queueFds, hbufs]
  | cons buf bufs =>
    have hdata : ibufData { buf with fd := -1 } = ibufData buf := rfl
    simp only [msgbufWriteIov.go_cons, queueFds, hdata]
    split <;> simp

theorem clearBuf0_queued {w : Msgbuf} (h : Queued w.bufs.bufs) : Queued (clearBuf0 w).bufs.bufs := by
  unfold clearBuf0
  split
  . exact h
  rename_i buf bufs hbufs
  rw [hbufs] at h
  intro b hb
  rcases mem_cons.mp hb with rfl | hb
  . have ⟨hwf, hpos⟩ := h buf (by simp)
    exact ⟨⟨hwf.rpos_le, hwf.wpos_le⟩, hpos⟩
  . exact h b (mem_cons_of_mem _ hb)

theorem clearBuf0_split
    : ∃ sent rest, (clearBuf0 w).bufs.bufs = sent ++ rest
        ∧ queueBytes sent = queueBytes (msgbufWriteIov w)
        ∧ queueBytes (clearBuf0 w).bufs.bufs = queueBytes w.bufs.bufs
        ∧ ∀ buf ∈ sent, buf.fd = -1 := by
  unfold msgbufWriteIov clearBuf0
  cases hbufs : w.bufs.bufs with
  | nil => exact ⟨[], [], by simp [msgbufWriteIov.go, hbufs]⟩
  | cons buf bufs =>
    rcases msgbufWriteIov.go_append 1 bufs with ⟨rest, hrest⟩
    have hdata : ibufData { buf with fd := -1 } = ibufData buf := rfl
    refine ⟨{ buf with fd := -1 } :: msgbufWriteIov.go 1 bufs, rest, ?_, ?_, ?_, ?_⟩
    . rw [cons_append, ← hrest]
    . simp [msgbufWriteIov.go_cons, hdata]
    . simp [hdata]
    intro b hb
    rcases mem_cons.mp hb with rfl | hb
    . rfl
    . exact msgbufWriteIov.go_fd 1 one_pos bufs b hb

theorem msgbufWrite_bytes (n : Nat)
    : (msgbufWrite w (.bytes n)).2.1 = (msgbufDrain (clearBuf0 w) n).1 := by
  unfold msgbufWrite
  split
  . next hnil =>
    have hbufs := (msgbufWriteIov_nil_iff w).mp hnil
    have hclear : clearBuf0 w = w := by simp [clearBuf0, hbufs]
    rw [hclear]
    rcases w with ⟨⟨bufs, queued⟩, rbufs, rbuf, rpmsg, hdrsize⟩
    simp only at hbufs
    subst hbufs
    rfl
  rename_i hne
  simp only
  split
  . next hfd =>
    -- no descriptor goes along, so there is none to clear
    have hclear : clearBuf0 w = w := by
      unfold msgbufWriteFd msgbufWriteIov at hfd
      unfold clearBuf0
      cases hbufs : w.bufs.bufs with
      | nil => rfl
      | cons buf bufs =>
        rw [hbufs, msgbufWriteIov.go_cons] at hfd
        simp only [ite_eq_right_iff, reduceCtorEq, imp_false, ne_eq, Decidable.not_not] at hfd
        rcases w with ⟨⟨bufs', queued⟩, rbufs, rbuf, rpmsg, hdrsize⟩
        simp only at hbufs
        subst hbufs
        simp [← hfd]
    rw [hclear]
  . rfl

theorem msgbufWrite_failed {res : Sent} (h : res = .again ∨ res = .error) : (msgbufWrite w res).2.1 = w := by
  unfold msgbufWrite
  rcases h with rfl | rfl <;> split <;> rfl

theorem inv_write (h : Inv pid maxsize msgs s) (res : Sent) {s' : Sender} (hwrite : s.write res = some s')
    : Inv pid maxsize msgs s' := by
  have himsgbuf : (imsgbufWrite s.imsgbuf res).2.1
      = { s.imsgbuf with w := (msgbufWrite s.imsgbuf.w res).2.1 } := by
    simp [imsgbufWrite, h.allowFdpass_eq]
  unfold Sender.write at hwrite
  rw [himsgbuf] at hwrite
  cases res with
  | again | error =>
    rw [msgbufWrite_failed _ (by simp)] at hwrite
    cases hwrite
    exact h
  | bytes n =>
    rw [msgbufWrite_bytes] at hwrite
    dsimp only at hwrite
    split at hwrite
    . next hn =>
      cases hwrite
      rcases clearBuf0_split s.imsgbuf.w with ⟨sent, rest, hsplit, hsent, hbytes, hfd⟩
      have hqueued := clearBuf0_queued h.queued
      have htake : (queueBytes (msgbufWriteIov s.imsgbuf.w)).take n
          = (queueBytes s.imsgbuf.w.bufs.bufs).take n := by
        rw [← hbytes, hsplit, queueBytes_append, hsent, take_append_of_le_length hn]
      refine ⟨h.pid_eq, h.maxsize_eq, h.allowFdpass_eq, ?_, ?_, ?_⟩
      . apply msgbufDrain.go_queued
        exact hqueued
      . simp only [msgbufDrain]
        rw [msgbufDrain.go_bytes _ _ _ hqueued, hbytes, htake, append_assoc,
          take_append_drop, h.bytes_eq]
      have hlen : (s.socket.stream ++ (queueBytes (msgbufWriteIov s.imsgbuf.w)).take n).length
          = s.socket.stream.length + n := by
        rw [length_append, length_take, min_eq_left hn]
      simp only [msgbufDrain, hlen]
      rw [hsplit] at hqueued
      rw [hsplit, msgbufDrain.go_fds _ _ _ _ _ hqueued hfd (by rw [hsent]; exact hn), ← hsplit,
        append_assoc, ← queueFds_clearBuf0]
      exact h.fds_eq
    . contradiction

theorem inv_run {acts : List SendAct} {s' : Sender} (h : Inv pid maxsize msgs s)
    (hfits : ∀ msg ∈ composed acts, msg.Fits maxsize) (hrun : s.run acts = some s')
    : Inv pid maxsize (msgs ++ composed acts) s' := by
  induction acts generalizing s msgs with
  | nil =>
    cases hrun
    simpa [composed] using h
  | cons act acts ih =>
    cases act with
    | compose msg =>
      simp only [composed] at hfits ⊢
      rw [append_cons]
      apply ih
      . apply inv_compose h
        exact hfits msg (by simp)
      . intro m hm
        exact hfits m (mem_cons_of_mem _ hm)
      . exact hrun
    | write res =>
      simp only [Sender.run] at hrun
      split at hrun
      . contradiction
      . next s₁ hwrite => exact ih (inv_write h res hwrite) hfits hrun

theorem inv_init (h : Opened imsgbuf)
    : Inv imsgbuf.pid imsgbuf.maxsize [] ⟨imsgbuf, ⟨[], []⟩⟩ := by
  refine ⟨rfl, rfl, h.allowFdpass_eq, ?_, ?_, ?_⟩
  . simp [h.w_eq, msgbufNewReader, ibufqInit, Queued]
  . simp [h.w_eq, msgbufNewReader, ibufqInit, streamBytes]
  . simp [h.w_eq, msgbufNewReader, ibufqInit, queueFds, msgFds]

end

end Transport

namespace Transport

open Framing

section

variable {pid maxsize : UInt32} {msg : Msg}

section

variable (hmax : maxsize.toNat < 2 ^ 31) (hfits : msg.Fits maxsize)
include hmax hfits

theorem ofNat_len_toNat : (UInt32.ofNat msg.len).toNat = msg.len := by
  have hlen : msg.len ≤ maxsize.toNat := hfits
  rw [UInt32.toNat_ofNat', mod_eq_of_lt]
  omega

theorem ofNat_len_lt : (UInt32.ofNat msg.len).toNat < 2 ^ 31 := by
  rw [ofNat_len_toNat hmax hfits]
  exact lt_of_le_of_lt hfits hmax

theorem wireLen_and_not : msg.wireLen &&& ~~~imsgFdMark = UInt32.ofNat msg.len := by
  exact wireLen_and_not_imsgFdMark (ofNat_len_lt hmax hfits) _

end

theorem header_bytes (more : List UInt8) : header (msg.bytes pid ++ more) = msg.hdr pid msg.wireLen := by
  simp [header, bytes, imsgHeaderSize]

variable {msgs : List Msg} {bs later : List UInt8}

theorem header_of_stream (hstream : streamBytes pid (msg :: msgs) = bs ++ later) (hlen : imsgHeaderSize ≤ bs.length)
    : header bs = msg.hdr pid msg.wireLen := by
  rw [← header_append bs later hlen, ← hstream, streamBytes, flatMap_cons, header_bytes]

section

variable (hmax : maxsize.toNat < 2 ^ 31) (hfits : msg.Fits maxsize)
  (hstream : streamBytes pid (msg :: msgs) = bs ++ later) (hlen : imsgHeaderSize ≤ bs.length)
include hmax hfits hstream hlen

theorem frameLen_of_stream : frameLen bs = msg.len := by
  unfold frameLen
  rw [header_of_stream hstream hlen]
  simp only [hdr, wireLen_and_not hmax hfits, ofNat_len_toNat hmax hfits]

theorem inRange_of_stream : InRange maxsize bs := by
  unfold InRange
  rw [frameLen_of_stream hmax hfits hstream hlen]
  exact ⟨le_add_right _ _, hfits⟩

theorem marked_of_stream : marked bs = decide (msg.fd ≥ 0) := by
  unfold marked
  rw [header_of_stream hstream hlen]
  simp only [hdr, wireLen]
  split
  . next h => simp [h, or_imsgFdMark_and]
  . next h => simp [h, and_imsgFdMark (ofNat_len_lt hmax hfits)]

end

end

def frame (pid : UInt32) (msg : Msg) : Frame :=
  ⟨msg.bytes pid, normFd msg.fd⟩

def undelivered (started : Option Int) (pos : Nat) (msgs : List Msg) : List (Nat × Int) :=
  match started, msgs with
  | none, msgs => msgFds pos msgs
  | some _, [] => []
  | some _, msg :: msgs => msgFds (pos + msg.len) msgs

def Started (started : Option Int) (msgs : List Msg) : Prop :=
  ∀ f ∈ started, ∃ msg msgs', msgs = msg :: msgs' ∧ f = normFd msg.fd

variable {pos : Nat} {msgs : List Msg} {g : Int} {fds' : List (Nat × Int)} {pid maxsize : UInt32}

theorem mem_msgFds : ∀ x ∈ msgFds pos msgs, pos ≤ x.1 ∧ 0 ≤ x.2 := by
  induction msgs generalizing pos with
  | nil => simp [msgFds]
  | cons msg msgs ih =>
    intro x hx
    simp only [msgFds] at hx
    split at hx
    . next h =>
      rcases mem_cons.mp hx with rfl | hx
      . exact ⟨le_refl _, h⟩
      . exact ⟨le_trans (le_add_right _ _) (ih x hx).1, (ih x hx).2⟩
    . exact ⟨le_trans (le_add_right _ _) (ih x hx).1, (ih x hx).2⟩

structure Due (stop : Nat) (g : Int) (fds fds' : List (Nat × Int)) : Prop where
  taken : g = -1 ∧ fds' = fds ∨ ∃ q, fds = (q, g) :: fds' ∧ q + imsgHeaderSize ≤ stop
  later : ∀ x ∈ fds', stop ≤ x.1

theorem Due.eq_neg_one {stop : Nat} {fds : List (Nat × Int)}
    (h : Due stop g fds fds') (hpos : ∀ x ∈ fds, pos ≤ x.1 ∧ 0 ≤ x.2) (hstop : stop < pos + imsgHeaderSize)
    : g = -1 ∧ fds' = fds := by
  rcases h.taken with h | ⟨q, hfds, hq⟩
  . exact h
  have := (hpos (q, g) (by simp [hfds])).1
  dsimp only at this
  omega

theorem Due.takeFd (hmax : maxsize.toNat < 2 ^ 31) {msg : Msg} (hfits : msg.Fits maxsize) {started : Option Int}
    {bs later : List UInt8} (hstream : streamBytes pid (msg :: msgs) = bs ++ later)
    (hlen : imsgHeaderSize ≤ bs.length) (hstarted : Started started (msg :: msgs))
    (hdue : Due (pos + bs.length) g (undelivered started pos (msg :: msgs)) fds')
    : (takeFd started g bs).1 = normFd msg.fd
      ∧ Due (pos + bs.length) (takeFd started g bs).2 (msgFds (pos + msg.len) msgs) fds' := by
  cases started with
  | some f =>
    rcases hstarted f rfl with ⟨msg', msgs', heq, hf⟩
    cases heq
    exact ⟨hf, hdue⟩
  | none =>
    have hmarked := marked_of_stream hmax hfits hstream hlen
    by_cases hfd : msg.fd ≥ 0
    . simp only [hfd, decide_true] at hmarked
      simp only [undelivered, msgFds, hfd, ↓reduceIte] at hdue
      simp only [Framing.takeFd, hmarked, ↓reduceIte]
      rcases hdue with ⟨⟨-, rfl⟩ | ⟨q, hq, -⟩, hlater⟩
      -- it cannot be left for a later read, as it is due in this one
      . have := hlater (pos, msg.fd) (by simp)
        simp only [imsgHeaderSize] at *
        omega
      . cases hq
        exact ⟨by simp [normFd, hfd], Or.inl ⟨rfl, rfl⟩, hlater⟩
    simp only [hfd, decide_false] at hmarked
    simp only [undelivered, msgFds, hfd, ↓reduceIte] at hdue
    simp only [Framing.takeFd, hmarked, Bool.false_eq_true, ↓reduceIte]
    exact ⟨by simp [normFd, hfd], hdue⟩

theorem process_delivers (hmax : maxsize.toNat < 2 ^ 31) (msgs : List Msg) (hfits : ∀ msg ∈ msgs, msg.Fits maxsize)
    (started : Option Int) (g : Int) (bs later : List UInt8) (pos : Nat) (fds' : List (Nat × Int))
    (hstream : streamBytes pid msgs = bs ++ later) (hstarted : Started started msgs)
    (hheader : started.isSome → imsgHeaderSize ≤ bs.length)
    (hdue : Due (pos + bs.length) g (undelivered started pos msgs) fds')
    : ∃ done rest started' pend,
        msgs = done ++ rest
        ∧ process maxsize started g bs = (done.map (frame pid), .pending started' pend (-1))
        ∧ streamBytes pid rest = pend ++ later
        ∧ fds' = undelivered started' (pos + (streamBytes pid done).length) rest
        ∧ Started started' rest := by
  induction msgs generalizing started g bs pos with
  | nil =>
    have hnone : started = none := by
      cases started with
      | none => rfl
      | some f =>
        rcases hstarted f rfl with ⟨msg, msgs', heq, -⟩
        contradiction
    subst hnone
    simp only [streamBytes, flatMap_nil, nil_eq_append_iff] at hstream
    obtain ⟨rfl, rfl⟩ := hstream
    rcases hdue.taken with ⟨rfl, rfl⟩ | ⟨q, hq, -⟩
    . refine ⟨[], [], none, [], rfl, ?_, rfl, rfl, by simp [Started]⟩
      rw [process_short none (-1) (by simp [imsgHeaderSize])]
      rfl
    . simp [undelivered, msgFds] at hq
  | cons msg msgs ih =>
    have hfit := hfits msg (by simp)
    by_cases hlen : bs.length < imsgHeaderSize
    . have hnone : started = none := by
        cases started with
        | none => rfl
        | some f =>
          have := hheader rfl
          omega
      subst hnone
      obtain ⟨rfl, rfl⟩ := hdue.eq_neg_one mem_msgFds (by omega)
      refine ⟨[], msg :: msgs, none, bs, rfl, ?_, hstream, ?_, hstarted⟩
      . rw [process_short none (-1) hlen]
        rfl
      . simp [streamBytes]
    rw [not_lt] at hlen
    have hrange := inRange_of_stream hmax hfit hstream hlen
    have hframe := frameLen_of_stream hmax hfit hstream hlen
    obtain ⟨hf, hdue'⟩ := hdue.takeFd hmax hfit hstream hlen hstarted
    by_cases hpart : bs.length < frameLen bs
    . obtain ⟨hg, rfl⟩ := hdue'.eq_neg_one mem_msgFds (by omega)
      refine ⟨[], msg :: msgs, some (normFd msg.fd), bs, rfl, ?_, hstream, ?_, ?_⟩
      . rw [process_pending started g hlen hrange hpart, hf, hg]
        rfl
      . simp [streamBytes, undelivered]
      intro f hmem
      cases hmem
      exact ⟨msg, msgs, rfl, rfl⟩
    rw [not_lt] at hpart
    have hsplit : msg.bytes pid ++ streamBytes pid msgs = bs ++ later := hstream
    have htake : bs.take (frameLen bs) = msg.bytes pid := by
      have := congrArg (List.take msg.len) hsplit
      rw [take_append_of_le_length (by rw [bytes_length]),
        take_append_of_le_length (by omega),
        take_of_length_le (by rw [bytes_length])] at this
      rw [hframe, this]
    have hdrop : streamBytes pid msgs = bs.drop (frameLen bs) ++ later := by
      rw [← take_append_drop (frameLen bs) bs, htake, append_assoc] at hsplit
      exact append_cancel_left hsplit
    have hstop : pos + bs.length = pos + msg.len + (bs.drop (frameLen bs)).length := by
      rw [length_drop]
      omega
    rw [hstop] at hdue'
    rcases ih (fun m hm => hfits m (mem_cons_of_mem _ hm)) none (takeFd started g bs).2
        (bs.drop (frameLen bs)) (pos + msg.len) hdrop (by simp [Started]) (by simp) hdue'
      with ⟨done, rest, started', pend, hmsgs, hprocess, hrest, hfds, hstarted'⟩
    refine ⟨msg :: done, rest, started', pend, ?_, ?_, hrest, ?_, hstarted'⟩
    . rw [hmsgs, cons_append]
    . rw [process_frame started g hrange hpart, hprocess, htake, hf]
      rfl
    rw [hfds]
    simp only [streamBytes, flatMap_cons, length_append, bytes_length,
      add_assoc]

section

variable {pid : UInt32} {imsgbuf : Imsgbuf} {msg : Msg}

theorem imsgbufGet_frame (hmax : imsgbuf.maxsize.toNat < 2 ^ 31) (hfits : msg.Fits imsgbuf.maxsize)
    {bufs : List Ibuf} (hbufs : imsgbuf.w.rbufs.bufs = (frame pid msg).ibuf :: bufs)
    : ∃ imsg queued,
        imsgbufGet imsgbuf
          = .message imsg { imsgbuf with w := { imsgbuf.w with rbufs := ⟨bufs, queued⟩ } }
        ∧ view imsg = expected pid msg := by
  have hdata : ibufData (frame pid msg).ibuf = msg.bytes pid := by simp [Frame.ibuf, frame]
  have hsize : imsgHeaderSize ≤ ibufSize (frame pid msg).ibuf := by
    simp [Frame.ibuf, frame, frameIbuf, ibufSize, bytes_length, len]
  have htake : (msg.bytes pid).take imsgHeaderSize = (msg.hdr pid msg.wireLen).encode := by
    simp [bytes, imsgHeaderSize]
  have hdrop : (msg.bytes pid).drop imsgHeaderSize = msg.data := by
    simp [bytes, imsgHeaderSize]
  simp only [imsgbufGet, msgbufGet, ibufqPop, hbufs]
  rw [ibufGet_eq hsize, hdata, htake]
  refine ⟨_, _, rfl, ?_⟩
  simp only [view, expected, ibufData_advance, hdata, hdrop, ImsgHdr.decode_encode]
  refine Prod.ext ?_ (Prod.ext rfl ?_)
  . simp [hdr, wireLen_and_not hmax hfits]
  have hfd := normFd_le msg.fd
  simp only [imsgGetFd, ibufFdGet, Frame.ibuf, frame, frameIbuf]
  by_cases hneg : normFd msg.fd < 0
  . simp only [hneg, ↓reduceIte]
    omega
  . simp only [hneg, ↓reduceIte]

end

theorem reader_rbufs {maxsize : UInt32} {w : Msgbuf} {started : Option Int} {pend : List UInt8}
    (h : Reader maxsize w started pend) (rbufs : Ibufqueue)
    : Reader maxsize { w with rbufs } started pend :=
  ⟨h.hdrsize_eq, h.rpmsg_eq, h.rbuf_eq, h.short, h.header, h.lt, h.range, h.fd_le⟩

theorem getAll_eq {pid : UInt32} (hmax : imsgbuf.maxsize.toNat < 2 ^ 31)
    {msgs : List Msg} (hfits : ∀ msg ∈ msgs, msg.Fits imsgbuf.maxsize)
    (hbufs : imsgbuf.w.rbufs.bufs = msgs.map fun msg => (frame pid msg).ibuf)
    : (getAll imsgbuf).map view = msgs.map (expected pid) := by
  unfold getAll
  rw [hbufs, length_map]
  induction msgs generalizing imsgbuf with
  | nil => rfl
  | cons msg msgs ih =>
    rcases imsgbufGet_frame hmax (hfits msg (by simp)) hbufs with ⟨imsg, queued, hget, hview⟩
    simp only [length_cons, getAll.go, hget, map_cons, hview]
    rw [ih]
    . exact hmax
    . intro m hm
      exact hfits m (mem_cons_of_mem _ hm)
    . rfl

structure RecvInv (pid : UInt32) (imsgbuf : Imsgbuf) (got : List Imsg) (taken queued rest : List Msg)
    (started : Option Int) (pend later : List UInt8) : Prop where
  maxsize_lt : imsgbuf.maxsize.toNat < 2 ^ 31
  allowFdpass_eq : imsgbuf.allowFdpass = true
  fits : ∀ msg ∈ queued ++ rest, msg.Fits imsgbuf.maxsize
  got_eq : got.map view = taken.map (expected pid)
  queued_eq : imsgbuf.w.rbufs.bufs = queued.map fun msg => (frame pid msg).ibuf
  reader : Reader imsgbuf.maxsize imsgbuf.w started pend
  started_ok : Started started rest
  bytes_eq : streamBytes pid rest = pend ++ later

theorem readFd_controlOf (hpass : imsgbuf.allowFdpass = true) (fd : Option Int)
    : readFd imsgbuf (controlOf fd) = fd.getD (-1) := by
  cases fd with
  | none | some f => simp [readFd, hpass, controlOf, takeFds]

section

variable {pid : UInt32} {imsgbuf : Imsgbuf} {got : List Imsg} {taken queued rest : List Msg}
  {started : Option Int} {pend later : List UInt8} {pos : Nat} {fds : List (Nat × Int)}

variable {bs : List UInt8} {fd : Option Int}

theorem Delivers.due {reads : List (List UInt8 × Option Int)} (h : Delivers pos ((bs, fd) :: reads) fds)
    : ∃ fds', Due (pos + bs.length) (fd.getD (-1)) fds fds' ∧ Delivers (pos + bs.length) reads fds'
        ∧ ∀ f ∈ fd, ∃ x ∈ fds, x.2 = f := by
  cases fd with
  | none => exact ⟨fds, ⟨Or.inl ⟨rfl, rfl⟩, h.1⟩, h.2, by simp⟩
  | some f =>
    rcases h with ⟨p, fds', rfl, hle, hheader, hlater, hrest⟩
    exact ⟨fds', ⟨Or.inr ⟨p, rfl, hheader⟩, hlater⟩, hrest, by simp⟩

theorem undelivered_nonneg : ∀ x ∈ undelivered started pos rest, 0 ≤ x.2 := by
  intro x hx
  unfold undelivered at hx
  split at hx
  . exact (mem_msgFds x hx).2
  . contradiction
  . exact (mem_msgFds x hx).2

theorem recvInv_read {fds' : List (Nat × Int)}
    (h : RecvInv pid imsgbuf got taken queued rest started pend (bs ++ later)) (hne : bs ≠ []) (hfd : ∀ f ∈ fd, 0 ≤ f)
    (hdue : Due (pos + (pend ++ bs).length) (fd.getD (-1)) (undelivered started pos rest) fds')
    : ∃ imsgbuf' effs done rest' started' pend',
        imsgbufRead (fun _ => true) imsgbuf (.bytes bs (controlOf fd)) = some (1, imsgbuf', effs)
        ∧ rest = done ++ rest'
        ∧ RecvInv pid imsgbuf' got taken (queued ++ done) rest' started' pend' later
        ∧ fds' = undelivered started' (pos + (streamBytes pid done).length) rest' := by
  have harrives : Arrives bs (controlOf fd) := by
    refine ⟨hne, ?_⟩
    cases fd with
    | none => simp [controlOf]
    | some f => simpa [controlOf] using hfd f rfl
  have hrest : ∀ msg ∈ rest, msg.Fits imsgbuf.maxsize :=
    fun msg hmsg => h.fits msg (mem_append_right _ hmsg)
  have hheader : started.isSome → imsgHeaderSize ≤ (pend ++ bs).length := by
    intro hsome
    rw [length_append]
    exact le_add_right_of_le (h.reader.header hsome)
  rcases process_delivers h.maxsize_lt rest hrest started (fd.getD (-1)) (pend ++ bs) later pos fds'
      (by rw [h.bytes_eq, append_assoc]) h.started_ok hheader hdue
    with ⟨done, rest', started', pend', hsplit, hprocess, hbytes, hfds, hstarted⟩
  rcases imsgbufRead_eq h.reader harrives with ⟨w, hread, hbufs, hreader⟩
  have hout : readOut imsgbuf started pend bs (controlOf fd)
      = (done.map (frame pid), .pending started' pend' (-1)) := by
    rw [readOut, readFd_controlOf h.allowFdpass_eq, hprocess]
  rw [hout] at hread hbufs hreader
  refine ⟨_, _, done, rest', started', pend', hread, hsplit, ?_, hfds⟩
  refine ⟨h.maxsize_lt, h.allowFdpass_eq, ?_, h.got_eq, ?_, ?_, hstarted, hbytes⟩
  . rw [append_assoc, ← hsplit]
    exact h.fits
  . simp only [hbufs, h.queued_eq, map_append, map_map]
    rfl
  . exact hreader started' pend' (-1) rfl

theorem recvInv_get {msg : Msg} (h : RecvInv pid imsgbuf got taken (msg :: queued) rest started pend later)
    : ∃ imsg imsgbuf', imsgbufGet imsgbuf = .message imsg imsgbuf'
        ∧ RecvInv pid imsgbuf' (got ++ [imsg]) (taken ++ [msg]) queued rest started pend later := by
  have hbufs := h.queued_eq
  rcases imsgbufGet_frame h.maxsize_lt (h.fits msg (by simp)) hbufs with ⟨imsg, n, hget, hview⟩
  refine ⟨imsg, _, hget, h.maxsize_lt, h.allowFdpass_eq, ?_, ?_, rfl, ?_, h.started_ok, h.bytes_eq⟩
  . intro m hm
    exact h.fits m (mem_cons_of_mem _ hm)
  . simp [h.got_eq, hview]
  . apply reader_rbufs
    exact h.reader

theorem imsgbufGet_empty (h : RecvInv pid imsgbuf got taken [] rest started pend later)
    : imsgbufGet imsgbuf = .empty := by
  have hbufs : imsgbuf.w.rbufs.bufs = [] := h.queued_eq
  simp [imsgbufGet, msgbufGet, ibufqPop, hbufs]

theorem RecvInv.rest_eq_nil (h : RecvInv pid imsgbuf got taken queued rest started pend [])
    : rest = [] := by
  cases rest with
  | nil => rfl
  | cons msg rest =>
    exfalso
    have hbytes := h.bytes_eq
    have hfit := h.fits msg (by simp)
    have hlen : msg.len ≤ pend.length := by
      have := congrArg List.length hbytes
      simp only [streamBytes, flatMap_cons, length_append, bytes_length,
        length_nil] at this
      omega
    have hheader : imsgHeaderSize ≤ pend.length := by
      simp only [len] at hlen
      omega
    cases started with
    | none =>
      have := h.reader.short rfl
      omega
    | some f =>
      have := h.reader.lt rfl
      rw [frameLen_of_stream h.maxsize_lt hfit hbytes hheader] at this
      omega

theorem receive_run (acts : List RecvAct) (pos : Nat)
    (h : RecvInv pid imsgbuf got taken queued rest started pend ((readsOf acts).flatMap Prod.fst))
    (hne : ∀ r ∈ readsOf acts, r.1 ≠ [])
    (hdelivers : Delivers (pos + pend.length) (readsOf acts) (undelivered started pos rest))
    : ∃ imsgbuf' got',
        receive imsgbuf got acts = some (imsgbuf', got')
        ∧ (got' ++ getAll imsgbuf').map view = (taken ++ queued ++ rest).map (expected pid) := by
  induction acts generalizing imsgbuf got taken queued rest started pend pos with
  | nil =>
    obtain rfl := h.rest_eq_nil
    refine ⟨imsgbuf, got, rfl, ?_⟩
    have hall := getAll_eq h.maxsize_lt (fun m hm => h.fits m (mem_append_left _ hm)) h.queued_eq
    simp only [map_append, h.got_eq, hall, append_nil]
  | cons act acts ih =>
    cases act with
    | read bs fd =>
      simp only [readsOf, flatMap_cons] at h hne hdelivers
      rcases hdelivers.due with ⟨fds', hdue, hlater, hmem⟩
      have hfd : ∀ f ∈ fd, 0 ≤ f := by
        intro f hf
        rcases hmem f hf with ⟨x, hx, rfl⟩
        exact undelivered_nonneg x hx
      rw [add_assoc, ← length_append] at hdue hlater
      rcases recvInv_read h (hne (bs, fd) (by simp)) hfd hdue
        with ⟨imsgbuf', effs, done, rest', started', pend', hread, hsplit, hinv, hfds⟩
      have hpos : pos + (pend ++ bs).length
          = pos + (streamBytes pid done).length + pend'.length := by
        have hlen := congrArg List.length (h.bytes_eq)
        have hlen' := congrArg List.length (hinv.bytes_eq)
        rw [hsplit] at hlen
        simp only [streamBytes, flatMap_append, length_append] at *
        omega
      rw [hpos, hfds] at hlater
      rcases ih _ hinv (fun r hr => hne r (mem_cons_of_mem _ hr)) hlater
        with ⟨imsgbuf'', got', hrun, hview⟩
      refine ⟨imsgbuf'', got', ?_, ?_⟩
      . simp only [receive, hread, ↓reduceIte]
        exact hrun
      . rw [hview, hsplit]
        simp
    | get =>
      cases queued with
      | nil =>
        rcases ih pos h hne hdelivers with ⟨imsgbuf', got', hrun, hview⟩
        refine ⟨imsgbuf', got', ?_, hview⟩
        simp only [receive, imsgbufGet_empty h]
        exact hrun
      | cons msg queued =>
        rcases recvInv_get h with ⟨imsg, imsgbuf₁, hget, hinv⟩
        rcases ih pos hinv hne hdelivers with ⟨imsgbuf', got', hrun, hview⟩
        refine ⟨imsgbuf', got', ?_, ?_⟩
        . simp only [receive, hget]
          exact hrun
        . rw [hview]
          simp

end

theorem composed_messages_arrive {sender receiver : Imsgbuf} (hsender : Opened sender)
    (hreceiver : Opened receiver) (hmaxsize : receiver.maxsize = sender.maxsize)
    {acts : List SendAct} {s : Sender} (hfits : ∀ msg ∈ composed acts, msg.Fits sender.maxsize)
    (hsend : Sender.run ⟨sender, ⟨[], []⟩⟩ acts = some s) (hsent : s.imsgbuf.w.bufs.bufs = [])
    {racts : List RecvAct} (hcarries : Carries s.socket (readsOf racts))
    : ∃ receiver' got,
        receive receiver [] racts = some (receiver', got)
        ∧ (got ++ getAll receiver').map view = (composed acts).map (expected sender.pid) := by
  have hinv := inv_run (inv_init hsender) hfits hsend
  have hbytes := hinv.bytes_eq
  have hfds := hinv.fds_eq
  rw [hsent] at hbytes hfds
  simp only [queueBytes_nil, append_nil, nil_append] at hbytes
  simp only [queueFds, append_nil, nil_append] at hfds
  have hrecv : RecvInv sender.pid receiver [] [] [] (composed acts) none []
      ((readsOf racts).flatMap Prod.fst) := by
    refine ⟨hreceiver.maxsize_lt, hreceiver.allowFdpass_eq, ?_, rfl, ?_, ?_, ?_, ?_⟩
    . rw [nil_append, hmaxsize]
      exact hfits
    . rw [hreceiver.w_eq]
      rfl
    . rw [hreceiver.w_eq]
      apply reader_init
    . simp [Started]
    . rw [hcarries.bytes_eq, hbytes, nil_append]
  have hdelivers := hcarries.delivers
  rw [hfds] at hdelivers
  simpa using receive_run racts 0 hrecv hcarries.ne_nil hdelivers

def sampleBuf : Imsgbuf :=
  imsgbufAllowFdpass (imsgbufInit 7)

def sampleMsg : Msg :=
  { type := 1, id := 2, pid := 0, fd := 5, data := [9, 8] }

theorem composed_messages_arrive_sample
    : ∃ receiver' got,
        receive sampleBuf [] [.read ((sampleMsg.bytes 7).take 17) (some 5), .get, .read [8] none]
          = some (receiver', got)
        ∧ (got ++ getAll receiver').map view
            = [({ type := 1, len := 18, peerid := 2, pid := 7 }, [9, 8], 5)] := by
  have hopened := imsgbufInit_opened 7
  let acts : List SendAct := [.compose sampleMsg, .write (.bytes 10), .write (.bytes 8)]
  have hfits : ∀ msg ∈ composed acts, msg.Fits sampleBuf.maxsize := by
    intro msg hmsg
    obtain rfl : msg = sampleMsg := by simpa [acts, composed] using hmsg
    unfold Fits
    decide
  have hcarries : Carries ⟨sampleMsg.bytes 7, [(0, 5)]⟩
      (readsOf [.read ((sampleMsg.bytes 7).take 17) (some 5), .get, .read [8] none]) := by
    refine ⟨rfl, by decide, 0, [], rfl, by decide, by decide, by simp, by simp, rfl⟩
  exact composed_messages_arrive hopened hopened rfl hfits rfl rfl hcarries

end Transport

end Libutil
