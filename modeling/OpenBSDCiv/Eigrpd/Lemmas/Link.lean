import OpenBSDCiv.Eigrpd.Lemmas.Peer

namespace Eigrpd

open List Option StopAndWait

section

variable (up : EigrpIface → Bool) {nbr : Nbr}

theorem rtpEnqueuePacket_retransmits (pkt : Packet) (h : nbr.Retransmits)
    : (rtpEnqueuePacket up nbr pkt).1.Retransmits ↔ nbr.self = false := by
  have hself := (rtpEnqueuePacket_same up nbr pkt).2.2.2
  unfold Nbr.Retransmits
  rw [hself]
  constructor
  . intro h'
    rw [← Bool.not_eq_true]
    intro hs
    have hempty := h'.2 hs
    unfold rtpEnqueuePacket at hempty
    rw [h.2 hs] at hempty
    contradiction
  intro hs
  rw [hs]
  refine ⟨?_, by simp⟩
  have harmed := h.1
  unfold rtpEnqueuePacket
  unfold Nbr.Armed at harmed ⊢
  split
  . simp only [List.head?_cons, mem_some_iff, forall_eq', rtpSendPacket_evTimeout]
  rename_i hlist
  simpa only [hlist, cons_append, List.head?_cons] using harmed

theorem rtpProcessAck_retransmits (ackNum : UInt32) (h : nbr.Retransmits)
    : (rtpProcessAck up nbr ackNum).1.Retransmits := by
  unfold rtpProcessAck
  split
  . exact h
  rename_i pkt rest hlist
  have hself : nbr.self ≠ true := by
    intro hs
    rw [h.2 hs] at hlist
    contradiction
  split
  . split
    . exact ⟨by simp [Nbr.Armed], fun _ => rfl⟩
    . refine ⟨?_, fun hs => absurd hs hself⟩
      simp only [Nbr.Armed, List.head?_cons, mem_some_iff, forall_eq', rtpSendPacket_evTimeout]
  . exact h

theorem recvPacketNbr_retransmits (self : EigrpdAddr) (buf : Ibuf) (h : nbr.Retransmits)
    : (recvPacketNbr up self nbr buf).1.Retransmits := by
  apply recvPacketNbr_induction
  . intro crMode nextMcastSeq
    exact h
  . intro nbr h
    exact rtpProcessAck_retransmits up buf.ackNum h
  . intro nbr h
    exact h

end

namespace Eigrpe

variable {s : Eigrpe}

variable {nbr : Nbr} {event : Event}

theorem put_retransmits {nbr' : Nbr} (h : s.Retransmits) (hmem : nbr ∈ s.nbrs) (hptr : nbr'.ptr = nbr.ptr)
    : (s.put nbr').Retransmits ↔ nbr'.Retransmits := by
  constructor
  . intro h'
    exact h' nbr' (put_mem hmem hptr)
  intro hnbr tmp htmp
  rcases mem_put htmp with rfl | htmp
  . exact hnbr
  . exact h tmp htmp

theorem rtpSendUcast_retransmits (buf : Ibuf) (h : s.Retransmits) (hmem : nbr ∈ s.nbrs)
    : (s.rtpSendUcast nbr buf).1.Retransmits ↔ nbr.self = false := by
  rw [← rtpEnqueuePacket_retransmits s.up (rtpPacketNew (s.seqNum nbr.ei.eigrp) buf) (h nbr hmem)]
  exact put_retransmits h hmem (rtpEnqueuePacket_same s.up nbr _).1

theorem rtpRetransTimer_retransmits (i : Nat) (h : s.Retransmits) (hmem : nbr ∈ s.nbrs)
    : (s.rtpRetransTimer nbr i).1.Retransmits := by
  unfold rtpRetransTimer
  split
  . exact h
  rename_i pkt hpkt
  split
  . dsimp only
    split
    . intro tmp htmp
      exact h tmp (mem_of_mem_filter htmp)
    refine (put_retransmits h hmem ?_).mpr ⟨?_, ?_⟩
    . rfl
    . have harmed := (h nbr hmem).1
      unfold Nbr.Armed at harmed ⊢
      cases hlist : nbr.retransList with
      | nil => simp
      | cons head rest =>
        rw [hlist] at harmed
        cases i with
        | zero => simp only [set_cons_zero, List.head?_cons, mem_some_iff, forall_eq',
            rtpSendPacket_evTimeout]
        | succ i => simpa only [set_cons_succ, List.head?_cons] using harmed
    intro hs
    rw [(h nbr hmem).2 hs]
    rfl
  . exact h

theorem append_retransmits {ei : EigrpIface} {pkt : Packet} (hpkt : pkt.evTimeout = false) (h : nbr.Retransmits)
    : (rtpSendMcast.append ei pkt nbr).Retransmits
      ↔ (nbr.ei = ei → nbr.self = false ∧ nbr.retransList ≠ []) := by
  unfold rtpSendMcast.append
  split
  . next hei =>
    rw [forall_prop_of_true hei]
    unfold Nbr.Retransmits Nbr.Armed
    have harmed := h.1
    unfold Nbr.Armed at harmed
    cases hlist : nbr.retransList with
    | nil => simp [hpkt]
    | cons head rest =>
      rw [hlist] at harmed
      simp only [cons_append, List.head?_cons, reduceCtorEq, imp_false, Bool.not_eq_true, ne_eq,
        not_false_eq_true, and_true]
      exact ⟨fun h' => h'.2, fun hself => ⟨harmed, hself⟩⟩
  . next hei =>
    exact ⟨fun _ h' => absurd h' hei, fun _ => h⟩

theorem rtpSendMcast_retransmits (ei : EigrpIface) (buf : Ibuf) (h : s.Retransmits)
    : (s.rtpSendMcast ei buf).1.Retransmits
      ↔ s.total ei = 0 ∨ ∀ nbr ∈ s.nbrList ei, nbr.self = false ∧ nbr.retransList ≠ [] := by
  by_cases htotal : s.total ei = 0
  . unfold rtpSendMcast
    rw [if_pos htotal]
    exact ⟨fun _ => Or.inl htotal, fun _ => h⟩
  rw [or_iff_right htotal]
  unfold Retransmits
  rw [rtpSendMcast_nbrs buf htotal]
  have hunarmed : ∀ seqNum buf, (rtpPacketNew seqNum buf).evTimeout = false := fun _ _ => rfl
  constructor
  . intro h' nbr hnbr
    rcases mem_nbrList.mp hnbr with ⟨hmem, hei⟩
    have happend := h' _ (mem_map_of_mem hmem)
    exact (append_retransmits (hunarmed _ _) (h nbr hmem)).mp happend hei
  intro hall tmp htmp
  rcases mem_map.mp htmp with ⟨nbr, hmem, rfl⟩
  apply (append_retransmits (hunarmed _ _) (h nbr hmem)).mpr
  intro hei
  exact hall nbr (mem_nbrList.mpr ⟨hmem, hei⟩)

theorem withNbr_retransmits {ptr : Nat} {f : Nbr → Eigrpe × List Sent} (h : s.Retransmits)
    (hf : ∀ nbr, nbr ∈ s.nbrs → nbr.ptr = ptr → (f nbr).1.Retransmits)
    : (s.withNbr ptr f).1.Retransmits := by
  unfold withNbr
  split
  . next nbr hfind =>
    exact hf nbr (find_some hfind).1 (find_some hfind).2
  . exact h

theorem step_retransmits {r : Eigrpe × List Sent} (h : s.Retransmits) (hstep : s.step event = some r)
    : r.1.Retransmits ↔ s.FindsArmed event := by
  cases event with
  | nbrNew ei addr self missed =>
    unfold step at hstep
    rcases map_eq_some_iff.mp hstep with ⟨s', hnew, rfl⟩
    unfold nbrNew at hnew
    dsimp only at hnew
    split at hnew
    . contradiction
    cases hnew
    refine ⟨fun _ => trivial, fun _ nbr hnbr => ?_⟩
    rcases mem_append.mp hnbr with hnbr | hnbr
    . exact h nbr hnbr
    . rw [mem_singleton.mp hnbr]
      exact ⟨by simp [Nbr.Armed], fun _ => rfl⟩
  | nbrDel ptr =>
    cases hstep
    refine ⟨fun _ => trivial, fun _ => ?_⟩
    apply withNbr_retransmits h
    intro nbr _ _ tmp htmp
    exact h tmp (mem_of_mem_filter htmp)
  | ifUpdate ei up =>
    cases hstep
    exact ⟨fun _ => trivial, fun _ => h⟩
  | sendUcast ptr msg =>
    cases hstep
    simp only [withNbr, FindsArmed]
    cases hfind : s.find ptr with
    | none => exact ⟨fun _ _ hnbr => by contradiction, fun _ => h⟩
    | some nbr =>
      simp only [mem_some_iff, forall_eq']
      exact rtpSendUcast_retransmits _ h (find_some hfind).1
  | sendMcast ei msg =>
    cases hstep
    exact rtpSendMcast_retransmits ei _ h
  | sendHello ei =>
    cases hstep
    exact ⟨fun _ => trivial, fun _ => h⟩
  | recv ptr self buf =>
    cases hstep
    refine ⟨fun _ => trivial, fun _ => ?_⟩
    apply withNbr_retransmits h
    intro nbr hmem _
    apply (put_retransmits h hmem (recvPacketNbr_same s.up self nbr buf).1).mpr
    exact recvPacketNbr_retransmits s.up self buf (h nbr hmem)
  | retransTimer ptr i =>
    cases hstep
    refine ⟨fun _ => trivial, fun _ => ?_⟩
    apply withNbr_retransmits h
    intro nbr hmem _
    exact rtpRetransTimer_retransmits i h hmem
  | ackTimer ptr =>
    cases hstep
    refine ⟨fun _ => trivial, fun _ => ?_⟩
    apply withNbr_retransmits h
    intro nbr _ _
    exact h

theorem next_retransmits {s' : Eigrpe} (h : s.Retransmits) (hnext : s.next event = some s')
    : s'.Retransmits ↔ s.FindsArmed event := by
  rcases map_eq_some_iff.mp hnext with ⟨r, hstep, rfl⟩
  exact step_retransmits h hstep

theorem retransmission_stays_armed {events : List Event} {s : Eigrpe} (hrun : eigrpeInit.run events = some s)
    (hmeets : Machine.RunMeets next FindsArmed eigrpeInit events)
    : s.Retransmits
      ∧ ∀ event s', s.next event = some s' → (s'.Retransmits ↔ s.FindsArmed event) := by
  have h : s.Retransmits := by
    apply Machine.run_inv _ hrun hmeets
    . intro nbr hnbr
      contradiction
    . intro s event s' h hcond hnext
      exact (next_retransmits h hnext).mpr hcond
  exact ⟨h, fun event s' hnext => next_retransmits h hnext⟩

def linkIface : EigrpIface :=
  {
    ifaceid := 1
    eigrp :=
      {
        id := 0
        af := .inet
        kvalues := [1, 0, 1, 0, 0, 0]
        activeTimeout := 3
        maximumHops := 100
        maximumPaths := 4
        variance := 1
      }
    ifindex := 1
    mtu := 1500
    delay := 10
    bandwidth := 100000
    splithorizon := true
  }

def linkAddr (host : UInt8) : EigrpdAddr :=
  ⟨[10, 0, 0, host] ++ List.replicate 12 0, rfl⟩

def sampleMsg : Message :=
  { opcode := .update, init := false, rinfoList := [] }

def sampleNbrs : List Event :=
  [.ifUpdate linkIface true, .nbrNew linkIface ⟨List.replicate 16 0, rfl⟩ true false,
    .nbrNew linkIface (linkAddr 1) false false]

theorem retransmission_stays_armed_unicast
    : ∃ s, eigrpeInit.run (sampleNbrs ++ [.sendUcast 1 sampleMsg, .retransTimer 1 0]) = some s
      ∧ (s.nbrs.map fun nbr => nbr.retransList.map Packet.attempts) = [[], [2]]
      ∧ s.Retransmits := by
  have h : (eigrpeInit.run (sampleNbrs ++ [.sendUcast 1 sampleMsg, .retransTimer 1 0])).any fun s =>
      (s.nbrs.map fun nbr => nbr.retransList.map Packet.attempts) = [[], [2]]
        ∧ Machine.RunMeets next FindsArmed eigrpeInit (sampleNbrs ++ [.sendUcast 1 sampleMsg, .retransTimer 1 0]) := by
    decide +kernel
  rcases (any_eq_true _ _).mp h with ⟨s, hrun, h⟩
  rcases of_decide_eq_true h with ⟨hlists, hmeets⟩
  exact ⟨s, hrun, hlists, (retransmission_stays_armed hrun hmeets).1⟩

theorem multicast_not_armed
    : ∃ s, eigrpeInit.run (sampleNbrs ++ [.sendMcast linkIface sampleMsg]) = some s
      ∧ (∃ nbr ∈ s.nbrs, nbr.self = false ∧ nbr.retransList ≠ [] ∧ ¬nbr.Armed)
      ∧ ∃ nbr ∈ s.nbrs, nbr.self = true ∧ nbr.retransList ≠ [] := by
  have h : (eigrpeInit.run (sampleNbrs ++ [.sendMcast linkIface sampleMsg])).any fun s =>
      (∃ nbr ∈ s.nbrs, nbr.self = false ∧ nbr.retransList ≠ [] ∧ ¬nbr.Armed)
        ∧ ∃ nbr ∈ s.nbrs, nbr.self = true ∧ nbr.retransList ≠ [] := by
    decide +kernel
  rcases (any_eq_true _ _).mp h with ⟨s, hrun, h⟩
  exact ⟨s, hrun, of_decide_eq_true h⟩

end Eigrpe

namespace Eigrpe

variable {s : Eigrpe}

theorem rtpSeqInc_seqNum (h : ∀ eigrp, s.seqNum eigrp ≠ 0) (eigrp eigrp' : Eigrp)
    : (s.rtpSeqInc eigrp).seqNum eigrp' ≠ 0 := by
  unfold rtpSeqInc
  dsimp only
  by_cases heq : eigrp' = eigrp
  . rw [heq, Function.update_self]
    split
    . decide
    . assumption
  . rw [Function.update_of_ne heq]
    exact h eigrp'

theorem rtpRetransTimer_seqNum (s : Eigrpe) (nbr : Nbr) (i : Nat)
    : (s.rtpRetransTimer nbr i).1.seqNum = s.seqNum := by
  unfold rtpRetransTimer
  split
  . rfl
  dsimp only
  split
  . split
    . rfl
    . rfl
  . rfl

theorem withNbr_seqNum {ptr : Nat} {f : Nbr → Eigrpe × List Sent} (h : ∀ eigrp, s.seqNum eigrp ≠ 0)
    (hf : ∀ nbr eigrp, (f nbr).1.seqNum eigrp ≠ 0) (eigrp : Eigrp)
    : (s.withNbr ptr f).1.seqNum eigrp ≠ 0 := by
  unfold withNbr
  split
  . exact hf _ eigrp
  . exact h eigrp

theorem step_seqNum {event : Event} {r : Eigrpe × List Sent} (h : ∀ eigrp, s.seqNum eigrp ≠ 0)
    (hstep : s.step event = some r)
    : ∀ eigrp, r.1.seqNum eigrp ≠ 0 := by
  cases event with
  | nbrNew ei addr self missed =>
    rcases map_eq_some_iff.mp hstep with ⟨s', hnew, rfl⟩
    unfold nbrNew at hnew
    dsimp only at hnew
    split at hnew
    . contradiction
    . cases hnew
      exact h
  | nbrDel ptr =>
    cases hstep
    exact withNbr_seqNum h fun _ => h
  | ifUpdate ei up =>
    cases hstep
    exact h
  | sendUcast ptr msg =>
    cases hstep
    apply withNbr_seqNum h
    intro nbr
    exact rtpSeqInc_seqNum (s := s.put _) h _
  | sendMcast ei msg =>
    cases hstep
    unfold rtpSendMcast
    split
    . exact h
    . exact rtpSeqInc_seqNum (s := { s with nbrs := _ }) h _
  | sendHello ei =>
    cases hstep
    exact h
  | recv ptr self buf =>
    cases hstep
    exact withNbr_seqNum h fun _ => h
  | retransTimer ptr i =>
    cases hstep
    apply withNbr_seqNum h
    intro nbr
    rw [rtpRetransTimer_seqNum]
    exact h
  | ackTimer ptr =>
    cases hstep
    exact withNbr_seqNum h fun _ => h

theorem run_seqNum {events : List Event} (hrun : eigrpeInit.run events = some s) (eigrp : Eigrp)
    : s.seqNum eigrp ≠ 0 := by
  have hmeets : Machine.RunMeets next (fun _ _ => True) eigrpeInit events := Machine.runMeets_of_forall fun _ _ => trivial
  have h : ∀ eigrp, s.seqNum eigrp ≠ 0 := by
    apply Machine.run_inv _ hrun hmeets
    . intro _
      exact (by decide : (1 : UInt32) ≠ 0)
    intro s event s' h _ hnext
    rcases map_eq_some_iff.mp hnext with ⟨r, hstep, rfl⟩
    exact step_seqNum h hstep
  exact h eigrp

theorem addressed_cases (s : Eigrpe) (nbr : Nbr) (event : Event)
    : s.addressed nbr event = [] ∨ ∃ eigrp msg, s.addressed nbr event = [s.buf eigrp msg] := by
  unfold addressed
  split
  . split
    . exact Or.inr ⟨_, _, rfl⟩
    . exact Or.inl rfl
  . split
    . exact Or.inr ⟨_, _, rfl⟩
    . exact Or.inl rfl
  . exact Or.inl rfl

end Eigrpe

namespace Link

def seqAt (sent : List Ibuf) : Nat → UInt32
  | 0 => 0
  | n + 1 => (sent[n]?.map Ibuf.seqNum).getD 0

variable {sent : List Ibuf} {n : Nat} {buf last : Ibuf} {nbr : Nbr} {seqNum : UInt32}

theorem seqAt_append {new : List Ibuf} (hn : n ≤ sent.length) : seqAt (sent ++ new) n = seqAt sent n := by
  cases n with
  | zero => rfl
  | succ n =>
    rw [seqAt, seqAt, getElem?_append_left hn]

theorem seqAt_succ (h : sent[n]? = some buf) : seqAt sent (n + 1) = buf.seqNum := by
  rw [seqAt, h]
  rfl

def OnWire (sent : List Ibuf) (buf : Ibuf) (i : Nat) : Prop :=
  sent[i]? = some buf.withoutAck

def OnBack (sent : List Ibuf) (buf : Ibuf) (n : Nat) : Prop :=
  n ≠ 0 ∧ n ≤ sent.length ∧ buf.ackNum = seqAt sent n

def acking (buf : Ibuf) : Bool :=
  buf.ackNum ≠ 0

theorem Follows.ne (h : Follows last buf) : last.seqNum ≠ buf.seqNum := by
  intro heq
  rcases h with h | ⟨hlast, hbuf⟩
  . rw [heq] at h
    exact UInt32.lt_irrefl _ h
  . rw [heq, hbuf] at hlast
    contradiction

theorem Follows.expects (h : Follows last buf) (hrecv : nbr.recvSeq = last.seqNum)
    : nbr.Expects buf.seqNum := by
  rintro ⟨hge, hwrap⟩
  rw [hrecv] at hge hwrap
  rcases h with h | h
  . exact UInt32.not_lt.mpr hge h
  . exact hwrap h

theorem not_expects_self (h : nbr.recvSeq = seqNum) : ¬nbr.Expects seqNum := by
  unfold Nbr.Expects
  rw [h, not_not]
  refine ⟨UInt32.le_refl _, ?_⟩
  rintro ⟨hmax, hone⟩
  rw [hone] at hmax
  contradiction

theorem expects_of_zero (h : nbr.recvSeq = 0) (hseq : seqNum ≠ 0) : nbr.Expects seqNum := by
  rintro ⟨hge, _⟩
  rw [h] at hge
  exact hseq (UInt32.le_antisymm hge (UInt32.zero_le))

structure Sim (dst src : Nat) (l : Link) (w : StopAndWait) : Prop where
  inv : w.Inv
  sent_length : l.sent.length = w.sent
  ordered : l.sent.IsChain Follows
  plain : ∀ buf ∈ l.sent, buf.seqNum ≠ 0 ∧ buf.flags &&& eigrpHdrFlagCr = 0
  seqNum : ∀ eigrp, l.sender.seqNum eigrp ≠ 0
  queue : ∃ nbr, l.sender.find dst = some nbr ∧ nbr.self = false ∧ nbr.Queue (l.sent.drop w.acked)
  recvSeq : ∃ nbr, l.receiver.find src = some nbr ∧ nbr.recvSeq = seqAt l.sent w.accepted
  accepted : l.accepted = l.sent.take w.accepted
  wire : List.Forall₂ (OnWire l.sent) (l.wire.filter Ibuf.reliable) w.link
  back : List.Forall₂ (OnBack l.sent) (l.back.filter acking) w.acks

section

variable {dst src : Nat} {l : Link} {w : StopAndWait}

variable {buf : Ibuf} {sent wire back new : List Ibuf} {nbr nbr' : Nbr} {event : Eigrpe.Event}
variable {r : Eigrpe × List Sent}

theorem Sim.follows (h : Sim dst src l w) {i : Nat} {last : Ibuf} (hlast : l.sent[i]? = some last)
    (hbuf : l.sent[i + 1]? = some buf)
    : Follows last buf := by
  rcases List.getElem?_eq_some_iff.mp hlast with ⟨_, rfl⟩
  rcases List.getElem?_eq_some_iff.mp hbuf with ⟨hi, rfl⟩
  exact isChain_iff_getElem.mp h.ordered i hi

theorem Sim.accepted_le (h : Sim dst src l w) : w.accepted ≤ l.sent.length := by
  rw [h.sent_length]
  exact h.inv.accepted_le_sent

theorem steps_copies {out : List Sent}
    (hsent : sent.length = w.sent) (hwire : List.Forall₂ (OnWire sent) (wire.filter Ibuf.reliable) w.link)
    (hcopies : copies nbr out = [] ∨ copies nbr out = (sent.drop w.acked).head?.toList)
    : ∃ link, Steps w { w with link }
      ∧ List.Forall₂ (OnWire sent) ((wire ++ arriving nbr out).filter Ibuf.reliable) link := by
  rw [filter_append]
  rw [List.head?_drop] at hcopies
  unfold copies at hcopies
  generalize (arriving nbr out).filter Ibuf.reliable = new at hcopies ⊢
  cases hnew : new with
  | nil =>
    rw [append_nil]
    exact ⟨w.link, .refl, hwire⟩
  | cons buf rest =>
    rw [hnew, map_cons] at hcopies
    rcases hcopies with hcopies | hcopies
    . contradiction
    cases hhead : sent[w.acked]? with
    | none =>
      rw [hhead] at hcopies
      contradiction
    | some head =>
      rw [hhead, toList_some, List.cons.injEq, map_eq_nil_iff] at hcopies
      rcases hcopies with ⟨hbuf, rfl⟩
      have hwaiting : w.acked < w.sent := hsent ▸ (List.getElem?_eq_some_iff.mp hhead).1
      refine ⟨w.link ++ [w.acked], .single (.transmit w hwaiting), ?_⟩
      apply rel_append hwire
      apply List.Forall₂.cons _ .nil
      unfold OnWire
      rw [hhead, hbuf]

theorem steps_acks (hsent : w.accepted ≤ sent.length) (hback : List.Forall₂ (OnBack sent) (back.filter acking) w.acks)
    (hnew : ∀ buf ∈ new, buf.ackNum = 0 ∨ buf.ackNum = seqAt sent w.accepted)
    : ∃ acks, StopAndWait.Steps w { w with acks }
      ∧ List.Forall₂ (OnBack sent) ((back ++ new).filter acking) acks := by
  refine ⟨_, StopAndWait.steps_acks w (new.filter acking).length, ?_⟩
  rw [filter_append]
  apply rel_append hback
  have hack : ∀ buf ∈ new.filter acking, OnBack sent buf w.accepted := by
    intro buf hbuf
    rw [mem_filter, acking, decide_eq_true_eq] at hbuf
    rcases hnew buf hbuf.1 with hzero | hack
    . exact absurd hzero hbuf.2
    refine ⟨?_, hsent, hack⟩
    intro hzero
    rw [hzero] at hack
    exact hbuf.2 hack
  generalize new.filter acking = bufs at hack ⊢
  induction bufs with
  | nil => exact .nil
  | cons buf bufs ih =>
    rw [forall_mem_cons] at hack
    exact .cons hack.1 (ih hack.2)

section

variable (h : Sim dst src l w)
include h

theorem Sim.disturbWire (hwire : wire = l.wire ∨ Disturb l.wire wire)
    : ∃ w', Sim dst src { l with wire } w' := by
  rcases hwire with rfl | hdisturb
  . exact ⟨w, h⟩
  rcases hdisturb.filter Ibuf.reliable with hsame | hdisturb
  . exact ⟨w, { h with wire := hsame ▸ h.wire }⟩
  . rcases hdisturb.related h.wire with ⟨link, hlink, hrel⟩
    exact ⟨{ w with link }, { h with inv := (Step.disturb w hlink).inv h.inv, wire := hrel }⟩

theorem Sim.disturbBack (hback : back = l.back ∨ Disturb l.back back)
    : ∃ w', Sim dst src { l with back } w' := by
  rcases hback with rfl | hdisturb
  . exact ⟨w, h⟩
  rcases hdisturb.filter acking with hsame | hdisturb
  . exact ⟨w, { h with back := hsame ▸ h.back }⟩
  . rcases hdisturb.related h.back with ⟨acks, hacks, hrel⟩
    exact ⟨{ w with acks }, { h with inv := (Step.disturbAcks w hacks).inv h.inv, back := hrel }⟩

theorem Sim.send {s : Eigrpe} (hnew : new = [] ∨ ∃ eigrp msg, new = [l.sender.buf eigrp msg])
    (hfollows : ∀ buf ∈ new, ∀ last ∈ l.sent.getLast?, Follows last buf) (hseqNum : ∀ eigrp, s.seqNum eigrp ≠ 0)
    (hfind : s.find dst = some nbr) (hself : nbr.self = false) (hqueue : nbr.Queue (l.sent.drop w.acked ++ new))
    : Sim dst src { l with sender := s, sent := l.sent ++ new } { w with sent := w.sent + new.length } := by
  have haccepted := h.accepted_le
  have hacked := Nat.le_trans h.inv.acked_le haccepted
  constructor
  . rcases hnew with rfl | ⟨eigrp, msg, rfl⟩
    . exact h.inv
    . exact (Step.send w).inv h.inv
  . rw [length_append, h.sent_length]
  . apply h.ordered.append
    . rcases hnew with rfl | ⟨eigrp, msg, rfl⟩
      . exact .nil
      . exact .singleton _
    . intro last hlast buf hbuf
      exact hfollows buf (mem_of_mem_head? hbuf) last hlast
  . intro buf hbuf
    rcases mem_append.mp hbuf with hbuf | hbuf
    . exact h.plain buf hbuf
    rcases hnew with rfl | ⟨eigrp, msg, rfl⟩
    . contradiction
    . rw [mem_singleton.mp hbuf]
      exact ⟨h.seqNum eigrp, Eigrpe.buf_flags eigrp msg⟩
  . exact hseqNum
  . refine ⟨nbr, hfind, hself, ?_⟩
    rw [drop_append_of_le_length hacked]
    exact hqueue
  . rcases h.recvSeq with ⟨nbr', hnbr', hrecv⟩
    refine ⟨nbr', hnbr', ?_⟩
    rw [seqAt_append haccepted]
    exact hrecv
  . rw [h.accepted, take_append_of_le_length haccepted]
  . apply h.wire.imp
    intro buf i hi
    unfold OnWire at *
    rw [getElem?_append_left (List.getElem?_eq_some_iff.mp hi).1]
    exact hi
  apply h.back.imp
  rintro buf n ⟨hzero, hlength, hack⟩
  refine ⟨hzero, ?_, ?_⟩
  . rw [length_append]
    exact Nat.le_add_right_of_le hlength
  . rw [seqAt_append hlength]
    exact hack

theorem Sim.sender (hfind : l.sender.find dst = some nbr) (hfrom : event.isFrom dst = false)
    (hstep : l.sender.step event = some r) (hfind' : r.1.find dst = some nbr') (horder : InOrder dst l (.sender event))
    : ∃ w', Sim dst src
      { l with
        sender := r.1
        wire := l.wire ++ arriving nbr r.2
        sent := l.sent ++ l.sender.addressed nbr event } w' := by
  rcases horder nbr hfind with ⟨hunconditional, hfollows⟩
  rcases h.queue with ⟨tmp, htmp, hself, hqueue⟩
  cases hfind.symm.trans htmp
  have hptr := Eigrpe.find_ptr hfind
  subst hptr
  have hpeer := Eigrpe.step_peer hfind hfrom hstep hfind'
  rcases hpeer.queue hqueue (Eigrpe.find_some hfind).1 hself hunconditional with ⟨hself', hqueue', hcopies⟩
  have hnew := l.sender.addressed_cases nbr event
  generalize l.sender.addressed nbr event = new at *
  have hsim := h.send hnew hfollows (Eigrpe.step_seqNum h.seqNum hstep) hfind' hself' hqueue'
  rw [← drop_append_of_le_length (Nat.le_trans h.inv.acked_le h.accepted_le)] at hcopies
  rcases steps_copies hsim.sent_length hsim.wire hcopies with ⟨link, hsteps, hwire⟩
  exact ⟨_, { hsim with inv := hsteps.inv hsim.inv, wire := hwire }⟩

theorem Sim.receiver (hfind : l.receiver.find src = some nbr) (hfrom : event.isFrom src = false)
    (hstep : l.receiver.step event = some r) (hfind' : r.1.find src = some nbr')
    : ∃ w', Sim dst src { l with receiver := r.1, back := l.back ++ arriving nbr r.2 } w' := by
  rcases h.recvSeq with ⟨tmp, htmp, hrecv⟩
  cases hfind.symm.trans htmp
  have hptr := Eigrpe.find_ptr hfind
  subst hptr
  rcases (Eigrpe.step_peer hfind hfrom hstep hfind').ackNum with ⟨hsame, hack⟩
  rw [hrecv] at hack
  rcases steps_acks h.accepted_le h.back hack with ⟨acks, hsteps, hback⟩
  exact ⟨_, { h with inv := hsteps.inv h.inv, back := hback, recvSeq := ⟨nbr', hfind', hsame.trans hrecv⟩ }⟩

theorem Sim.oldest (hfind : l.receiver.find src = some nbr) (hwire : l.wire = buf :: wire)
    (hreliable : buf.reliable = true)
    : ∃ i link, w.link = i :: link ∧ List.Forall₂ (OnWire l.sent) (wire.filter Ibuf.reliable) link
      ∧ l.sent[i]? = some buf.withoutAck
      ∧ (i = w.accepted ∧ nbr.Expects buf.seqNum
        ∨ i + 1 = w.accepted ∧ nbr.recvSeq = buf.seqNum) := by
  have hrel := h.wire
  rw [hwire, filter_cons_of_pos hreliable] at hrel
  rcases forall₂_cons_left_iff.mp hrel with ⟨i, link, hbuf, hrest, hlink⟩
  refine ⟨i, link, hlink, hrest, hbuf, ?_⟩
  rcases h.recvSeq with ⟨tmp, htmp, hrecv⟩
  cases hfind.symm.trans htmp
  rcases h.inv.oldest hlink with hnext | hlast
  . refine Or.inl ⟨hnext, ?_⟩
    subst hnext
    cases haccepted : w.accepted with
    | zero =>
      rw [haccepted] at hrecv
      exact expects_of_zero hrecv (h.plain _ (mem_of_getElem? hbuf)).1
    | succ n =>
      rw [haccepted] at hrecv hbuf
      have hn : n < l.sent.length := by
        have hlt := (List.getElem?_eq_some_iff.mp hbuf).1
        omega
      have hprev := List.getElem?_eq_getElem hn
      rw [seqAt_succ hprev] at hrecv
      exact (h.follows hprev hbuf).expects hrecv
  refine Or.inr ⟨hlast, ?_⟩
  have hseq : seqAt l.sent (i + 1) = buf.withoutAck.seqNum := seqAt_succ hbuf
  rw [hrecv, ← hlast, hseq]
  rfl

theorem Sim.accepted_length : l.accepted.length = w.accepted := by
  rw [h.accepted, length_take, Nat.min_eq_left h.accepted_le]

theorem Sim.not_next {i : Nat} (hlast : i + 1 = w.accepted) (hbuf : l.sent[i]? = some buf.withoutAck)
    : l.sent[w.accepted]? ≠ some buf.withoutAck := by
  intro hnext
  rw [← hlast] at hnext
  exact absurd rfl (h.follows hbuf hnext).ne

section

variable (self : EigrpdAddr) (hfind : l.receiver.find src = some nbr) (hwire : l.wire = buf :: wire)
include self hfind hwire

theorem Sim.deliver_iff (hreliable : buf.reliable = true)
    : (l.deliver nbr self buf).2.2 = true ↔ l.sent[l.accepted.length]? = some buf.withoutAck := by
  rcases h.oldest hfind hwire hreliable with ⟨i, link, hlink, hrest, hbuf, hcases⟩
  have hplain : buf.seqNum ≠ 0 ∧ buf.flags &&& eigrpHdrFlagCr = 0 :=
    h.plain buf.withoutAck (mem_of_getElem? hbuf)
  have hresult := recvPacketNbr_recvSeq l.receiver.up self nbr hplain.2 hplain.1
  have hdeliver : (l.deliver nbr self buf).2.2 = (recvPacketNbr l.receiver.up self nbr buf).2.2 := by
    unfold Link.deliver Eigrpe.recv
    simp only [hreliable, Bool.and_true]
  rw [hdeliver, h.accepted_length]
  rcases hcases with ⟨rfl, hexpects⟩ | ⟨hlast, hrecv⟩
  . rw [if_pos hexpects] at hresult
    exact ⟨fun _ => hbuf, fun _ => hresult.1⟩
  rw [if_neg (not_expects_self hrecv)] at hresult
  constructor
  . intro htrue
    rw [hresult.1] at htrue
    contradiction
  intro hnext
  exact absurd hnext (h.not_next hlast hbuf)

theorem Sim.deliver
    : ∃ w', Sim dst src
      { l with
        receiver := (l.deliver nbr self buf).1
        wire
        back := l.back ++ arriving nbr (l.deliver nbr self buf).2.1
        accepted := if (l.deliver nbr self buf).2.2 then l.accepted ++ [buf.withoutAck] else l.accepted } w' := by
  rcases h.recvSeq with ⟨tmp, htmp, hrecv⟩
  cases hfind.symm.trans htmp
  have hfind' : (l.deliver nbr self buf).1.find src = some (recvPacketNbr l.receiver.up self nbr buf).1 :=
    Eigrpe.find_recv self buf hfind
  have hack : ∀ b ∈ arriving nbr (l.deliver nbr self buf).2.1,
      b.ackNum = 0 ∨ b.ackNum = seqAt l.sent w.accepted := by
    intro b hb
    rw [← hrecv]
    exact Or.inr ((recvPacketNbr_unicast l.receiver.up self nbr buf).ackNum hb)
  rcases steps_acks h.accepted_le h.back hack with ⟨acks, hsteps, hback⟩
  have hinv := hsteps.inv h.inv
  by_cases hreliable : buf.reliable = true
  . have hiff := h.deliver_iff self hfind hwire hreliable
    rcases h.oldest hfind hwire hreliable with ⟨i, link, hlink, hrest, hbuf, hcases⟩
    have hplain : buf.seqNum ≠ 0 ∧ buf.flags &&& eigrpHdrFlagCr = 0 :=
      h.plain buf.withoutAck (mem_of_getElem? hbuf)
    have hresult := recvPacketNbr_recvSeq l.receiver.up self nbr hplain.2 hplain.1
    rw [h.accepted_length] at hiff
    rcases hcases with ⟨rfl, hexpects⟩ | ⟨hlast, hrecv'⟩
    . rw [if_pos hexpects] at hresult
      rw [if_pos (hiff.mpr hbuf)]
      have haccept := Step.accept { w with acks } hlink
      refine ⟨_, { h with
        inv := haccept.inv hinv
        wire := hrest
        back := hback
        recvSeq := ⟨_, hfind', ?_⟩
        accepted := ?_ }⟩
      . rw [hresult.2]
        exact (seqAt_succ hbuf).symm
      . rw [h.accepted, take_add_one, hbuf]
        rfl
    rw [if_neg (not_expects_self hrecv')] at hresult
    have hreject : ¬(l.deliver nbr self buf).2.2 = true := by
      rw [hiff]
      exact h.not_next hlast hbuf
    rw [if_neg hreject]
    have hlose : Disturb w.link link := hlink ▸ .lose [] link i
    refine ⟨_, { h with
      inv := (Step.disturb { w with acks } hlose).inv hinv
      wire := hrest
      back := hback
      recvSeq := ⟨_, hfind', hresult.2.trans hrecv⟩ }⟩
  have hzero : buf.seqNum = 0 := by simpa [Ibuf.reliable] using hreliable
  have hreject : ¬(l.deliver nbr self buf).2.2 = true := by
    unfold Link.deliver Eigrpe.recv
    simp [hreliable]
  rw [if_neg hreject]
  have hrest := h.wire
  rw [hwire, filter_cons_of_neg hreliable] at hrest
  refine ⟨_, { h with inv := hinv, wire := hrest, back := hback, recvSeq := ⟨_, hfind', ?_⟩ }⟩
  rw [recvPacketNbr_recvSeq_unreliable l.receiver.up self nbr hzero]
  exact hrecv

end

theorem Sim.deliverBack (self : EigrpdAddr) (hfind : l.sender.find dst = some nbr) (hback : l.back = buf :: back)
    : ∃ w', Sim dst src
      { l with
        sender := (l.sender.recv nbr self buf).1
        back
        wire := l.wire ++ arriving nbr (l.sender.recv nbr self buf).2.1 } w' := by
  rcases h.queue with ⟨tmp, htmp, hself, hqueue⟩
  cases hfind.symm.trans htmp
  have hfind' := Eigrpe.find_recv self buf hfind
  have hself' := (recvPacketNbr_same l.sender.up self nbr buf).2.2.2.trans hself
  rcases recvPacketNbr_queue l.sender.up hqueue self buf with
    ⟨hqueue', hcopies⟩ | ⟨head, rest, hdrop, hack, hhead, hqueue', hcopies⟩
  . -- The queue stays as it is, so the acknowledgement might as well be lost.
    rcases steps_copies h.sent_length h.wire (Or.inl hcopies) with ⟨link, hsteps, hwire⟩
    have hsim : Sim dst src
        { l with
          sender := (l.sender.recv nbr self buf).1
          wire := l.wire ++ arriving nbr (l.sender.recv nbr self buf).2.1 } { w with link } :=
      { h with inv := hsteps.inv h.inv, wire := hwire, queue := ⟨_, hfind', hself', hqueue'⟩ }
    apply hsim.disturbBack
    apply Or.inr
    rw [hback]
    exact .lose [] back buf
  . have hrel := h.back
    have hacking : acking buf = true := decide_eq_true hack
    rw [hback, filter_cons_of_pos hacking] at hrel
    rcases forall₂_cons_left_iff.mp hrel with ⟨n, acks, ⟨hzero, _, hn⟩, hrest, hacks⟩
    have hget : l.sent[w.acked]? = some head := by
      rw [← List.head?_drop, hdrop, List.head?_cons]
    have hnext : n = w.acked + 1 := by
      rcases h.inv.oldestAck hacks with hold | hnew
      . exfalso
        cases n with
        | zero => contradiction
        | succ n =>
          have hlt := (List.getElem?_eq_some_iff.mp hget).1
          have hprev := List.getElem?_eq_getElem (show n < l.sent.length by omega)
          rw [seqAt_succ hprev] at hn
          rw [← hold] at hget
          exact (h.follows hprev hget).ne (hn.symm.trans hhead.symm)
      . exact hnew
    have hfinish := (Step.finish w (hnext ▸ hacks)).inv h.inv
    have hrest' : rest = l.sent.drop (w.acked + 1) := by
      rw [← drop_drop, hdrop]
      rfl
    rw [hrest'] at hqueue' hcopies
    have hsent : l.sent.length = { w with acked := w.acked + 1, acks }.sent := h.sent_length
    rcases steps_copies hsent h.wire hcopies with ⟨link, hsteps, hwire⟩
    exact ⟨_, { h with
      inv := hsteps.inv hfinish
      wire := hwire
      back := hrest
      queue := ⟨_, hfind', hself', hqueue'⟩ }⟩

theorem Sim.step {event : Event} {l' : Link} (horder : InOrder dst l event) (hstep : l.step dst src event = some l')
    : ∃ w', Sim dst src l' w' := by
  cases event with
  | sender event =>
    dsimp only [Link.step] at hstep
    split at hstep
    . contradiction
    rename_i hfrom
    simp only [bind_eq_bind, bind_eq_some_iff, some.injEq] at hstep
    rcases hstep with ⟨nbr, hfind, r, hstep, nbr', hfind', rfl⟩
    exact h.sender hfind (Bool.not_eq_true _ ▸ hfrom) hstep hfind' horder
  | receiver event =>
    dsimp only [Link.step] at hstep
    split at hstep
    . contradiction
    rename_i hfrom
    simp only [bind_eq_bind, bind_eq_some_iff, some.injEq] at hstep
    rcases hstep with ⟨nbr, hfind, r, hstep, nbr', hfind', rfl⟩
    exact h.receiver hfind (Bool.not_eq_true _ ▸ hfrom) hstep hfind'
  | lose i =>
    cases hstep
    exact h.disturbWire (disturb_eraseIdx l.wire i)
  | repeat_ i =>
    cases hstep
    exact h.disturbWire (disturb_repeatIdx l.wire i)
  | loseBack i =>
    cases hstep
    exact h.disturbBack (disturb_eraseIdx l.back i)
  | repeatBack i =>
    cases hstep
    exact h.disturbBack (disturb_repeatIdx l.back i)
  | deliver self =>
    dsimp only [Link.step] at hstep
    split at hstep
    . cases hstep
      exact ⟨w, h⟩
    rename_i buf wire hwire
    simp only [bind_eq_bind, bind_eq_some_iff, some.injEq] at hstep
    rcases hstep with ⟨nbr, hfind, rfl⟩
    exact h.deliver self hfind hwire
  | deliverBack self =>
    dsimp only [Link.step] at hstep
    split at hstep
    . cases hstep
      exact ⟨w, h⟩
    rename_i buf back hback
    simp only [bind_eq_bind, bind_eq_some_iff, some.injEq] at hstep
    rcases hstep with ⟨nbr, hfind, rfl⟩
    exact h.deliverBack self hfind hback

end

end

end Link

end Eigrpd
