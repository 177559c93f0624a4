import OpenBSDCiv.Eigrpd.Lemmas.Link

namespace Eigrpd

namespace Link

open Option

variable {dst src : Nat} {l l' : Link}

theorem Fresh.sim (h : Fresh dst src l) : Sim dst src l .init := by
  rcases h.sender with ⟨events, hrun⟩
  rcases h.dst with ⟨nbr, hfind, hself, hlist⟩
  rcases h.src with ⟨nbr', hfind', hrecv⟩
  constructor
  . exact StopAndWait.inv_init
  . rw [h.sent]
    rfl
  . rw [h.sent]
    exact .nil
  . simp [h.sent]
  . exact Eigrpe.run_seqNum hrun
  . refine ⟨nbr, hfind, hself, ?_⟩
    rw [h.sent]
    exact Nbr.Queue.nil hlist
  . exact ⟨nbr', hfind', hrecv⟩
  . rw [h.accepted, h.sent]
    rfl
  . rw [h.wire]
    exact .nil
  . rw [h.back]
    exact .nil

theorem step_retransmits {event : Event} (h : l.sender.Retransmits) (hcond : l.FindsArmed event)
    (hstep : l.step dst src event = some l')
    : l'.sender.Retransmits := by
  cases event with
  | sender event =>
    dsimp only [step] at hstep
    split at hstep
    . contradiction
    simp only [bind_eq_bind, bind_eq_some_iff, some.injEq] at hstep
    rcases hstep with ⟨nbr, _, r, hstep, nbr', _, rfl⟩
    exact (Eigrpe.step_retransmits h hstep).mpr hcond
  | receiver event =>
    dsimp only [step] at hstep
    split at hstep
    . contradiction
    simp only [bind_eq_bind, bind_eq_some_iff, some.injEq] at hstep
    rcases hstep with ⟨nbr, _, r, _, nbr', _, rfl⟩
    exact h
  | deliver self =>
    dsimp only [step] at hstep
    split at hstep
    . cases hstep
      exact h
    simp only [bind_eq_bind, bind_eq_some_iff, some.injEq] at hstep
    rcases hstep with ⟨nbr, _, rfl⟩
    exact h
  | deliverBack self =>
    dsimp only [step] at hstep
    split at hstep
    . cases hstep
      exact h
    rename_i buf back hback
    simp only [bind_eq_bind, bind_eq_some_iff, some.injEq] at hstep
    rcases hstep with ⟨nbr, hfind, rfl⟩
    have hmem := (Eigrpe.find_some hfind).1
    apply (Eigrpe.put_retransmits h hmem (recvPacketNbr_same l.sender.up self nbr buf).1).mpr
    exact recvPacketNbr_retransmits l.sender.up self buf (h nbr hmem)
  | lose i | repeat_ i | loseBack i | repeatBack i =>
    cases hstep
    exact h

theorem delivered_once_in_order {l₀ : Link} {events : List Event} (hfresh : Fresh dst src l₀)
    (hrun : run dst src l₀ events = some l) (horder : Machine.RunMeets (step dst src) (InOrder dst) l₀ events)
    : l.accepted <+: l.sent
      ∧ (∃ nbr, l.sender.find dst = some nbr
        ∧ (∃ done, l.sent = done ++ nbr.retransList.map (fun pkt => pkt.buf.withoutAck) ∧ done <+: l.accepted)
        ∧ (l₀.sender.Retransmits → Machine.RunMeets (step dst src) FindsArmed l₀ events → nbr.Armed))
      ∧ ∃ nbr, l.receiver.find src = some nbr
        ∧ ∀ self buf wire, l.wire = buf :: wire → buf.reliable = true
          → ((l.deliver nbr self buf).2.2 = true ↔ l.sent[l.accepted.length]? = some buf.withoutAck) := by
  have hsim : ∃ w, Sim dst src l w := by
    apply Machine.run_inv _ hrun horder
    . exact ⟨_, hfresh.sim⟩
    . rintro l event l' ⟨w, hsim⟩ hcond hstep
      exact hsim.step hcond hstep
  rcases hsim with ⟨w, hsim⟩
  rcases hsim.queue with ⟨nbr, hfind, _, hqueue⟩
  rcases hsim.recvSeq with ⟨nbr', hfind', _⟩
  refine ⟨?_, ⟨nbr, hfind, ⟨l.sent.take w.acked, ?_, ?_⟩, ?_⟩, nbr', hfind', ?_⟩
  . rw [hsim.accepted]
    exact List.take_prefix _ _
  . rw [hqueue.bufs_eq, List.take_append_drop]
  . rw [hsim.accepted]
    exact List.take_prefix_take_left hsim.inv.acked_le
  . intro hretransmits hmeets
    have h : l.sender.Retransmits := by
      apply Machine.run_inv _ hrun hmeets
      . exact hretransmits
      . intro l event l' h hcond hstep
        exact step_retransmits h hcond hstep
    exact (h nbr (Eigrpe.find_some hfind).1).1
  . intro self buf wire hwire hreliable
    exact hsim.deliver_iff self hfind' hwire hreliable

open Eigrpe (linkIface linkAddr sampleMsg)

def sampleSender (seqNum : UInt32) : Eigrpe :=
  let nbr (ptr : Nat) (host : UInt8) : Nbr :=
    {
      ptr
      ei := linkIface
      addr := linkAddr host
      self := false
      crMode := false
      recvSeq := 0
      nextMcastSeq := 0
      retransList := []
    }
  {
    nbrs := [nbr 0 1, nbr 1 2]
    seqNum := Function.update (fun _ => 1) linkIface.eigrp seqNum
    up := Function.update (fun _ => false) linkIface true
    allocated := 2
  }

def sampleAck (seqNum : UInt32) : Ibuf :=
  { genEigrpHdr .hello 0 0 with ackNum := seqNum }

theorem sampleSender_one
    : eigrpeInit.run
      [.ifUpdate linkIface true, .nbrNew linkIface (linkAddr 1) false false, .nbrNew linkIface (linkAddr 2) false false]
      = some (sampleSender 1) := by
  have hseqNum : Function.update (fun _ => 1) linkIface.eigrp 1 = (fun _ : Eigrp => (1 : UInt32)) := by
    rw [Function.update_eq_self]
  unfold sampleSender
  rw [hseqNum]
  rfl

theorem sampleSender_succ {seqNum : UInt32} (h : seqNum ≠ 0) (hsucc : seqNum + 1 ≠ 0)
    : (sampleSender seqNum).run [.sendUcast 1 sampleMsg, .recv 1 (linkAddr 3) (sampleAck seqNum)]
      = some (sampleSender (seqNum + 1)) := by
  unfold Eigrpe.run
  simp [Machine.run, Eigrpe.next, Eigrpe.step, Eigrpe.withNbr, Eigrpe.find, Eigrpe.put, sampleSender,
    Eigrpe.rtpSendUcast, rtpEnqueuePacket, rtpPacketNew, rtpSendPacket, sendPacket, Eigrpe.rtpSeqInc, Eigrpe.recv,
    recvPacketNbr, recvPacketNbr.seqTlv, recvPacketNbr.ackSeq, rtpProcessAck, sampleAck, genEigrpHdr, h, hsucc]

theorem sampleSender_reached {n : Nat} (hn : n + 1 < UInt32.size)
    : ∃ events, eigrpeInit.run events = some (sampleSender (UInt32.ofNat (n + 1))) := by
  induction n with
  | zero => exact ⟨_, sampleSender_one⟩
  | succ n ih =>
    rcases ih (by omega) with ⟨events, hrun⟩
    have hne : ∀ m, 0 < m → m < UInt32.size → UInt32.ofNat m ≠ 0 := by
      intro m hpos hlt heq
      have htoNat := congrArg UInt32.toNat heq
      rw [UInt32.toNat_ofNat_of_lt' hlt] at htoNat
      exact absurd htoNat (Nat.ne_of_gt hpos)
    have hadd : UInt32.ofNat (n + 1) + 1 = UInt32.ofNat (n + 1 + 1) := (UInt32.ofNat_add (n + 1) 1).symm
    have hsucc := sampleSender_succ (hne (n + 1) (by omega) (by omega)) (hadd ▸ hne (n + 1 + 1) (by omega) hn)
    rw [hadd] at hsucc
    refine ⟨events ++ [.sendUcast 1 sampleMsg, .recv 1 (linkAddr 3) (sampleAck (UInt32.ofNat (n + 1)))], ?_⟩
    unfold Eigrpe.run at *
    rw [Machine.run_append, hrun]
    exact hsucc

def sampleLink (seqNum : UInt32) : Link :=
  { sender := sampleSender seqNum, receiver := sampleSender 1, wire := [], back := [], sent := [], accepted := [] }

theorem sampleLink_fresh {n : Nat} (hn : n + 1 < UInt32.size)
    : Fresh 0 0 (sampleLink (UInt32.ofNat (n + 1))) := by
  constructor
  . exact sampleSender_reached hn
  . exact ⟨_, rfl, rfl, rfl⟩
  . exact ⟨_, rfl, rfl⟩
  . rfl
  . rfl
  . rfl
  . rfl

def sampleLoss : List Event :=
  [.sender (.sendUcast 0 sampleMsg), .lose 0, .sender (.retransTimer 0 0), .repeat_ 0,
    .sender (.sendUcast 0 sampleMsg), .deliver (linkAddr 1), .deliver (linkAddr 1), .deliverBack (linkAddr 3),
    .deliver (linkAddr 1)]

theorem delivered_once_in_order_loss
    : ∃ l, run 0 0 (sampleLink 1) sampleLoss = some l
      ∧ l.sent.length = 2 ∧ l.accepted.length = 2
      ∧ l.accepted <+: l.sent := by
  have h : (run 0 0 (sampleLink 1) sampleLoss).any fun l =>
      l.sent.length = 2 ∧ l.accepted.length = 2
        ∧ Machine.RunMeets (step 0 0) (InOrder 0) (sampleLink 1) sampleLoss := by
    decide +kernel
  rcases (any_eq_true _ _).mp h with ⟨l, hrun, h⟩
  rcases of_decide_eq_true h with ⟨hsent, haccepted, horder⟩
  have hfresh : Fresh 0 0 (sampleLink 1) := sampleLink_fresh (n := 0) (by decide)
  exact ⟨l, hrun, hsent, haccepted, (delivered_once_in_order hfresh hrun horder).1⟩

def DropsNext (l : Link) (self : EigrpdAddr) : Prop :=
  ∃ buf ∈ l.wire.head?, ∃ nbr ∈ l.receiver.find 0,
    l.sent[l.accepted.length]?.map Ibuf.seqNum = some buf.seqNum ∧ (l.deliver nbr self buf).2.2 = false

instance (l : Link) (self : EigrpdAddr) : Decidable (l.DropsNext self) := by
  unfold Link.DropsNext
  infer_instance

def sampleWraparound : List Event :=
  [.sender (.sendUcast 0 sampleMsg), .deliver (linkAddr 1), .receiver (.ackTimer 0), .deliverBack (linkAddr 3),
    .sender (.sendUcast 1 sampleMsg), .sender (.sendUcast 1 sampleMsg), .sender (.sendUcast 0 sampleMsg)]

def sampleConditional : List Event :=
  [.sender (.sendUcast 0 sampleMsg), .sender (.sendMcast linkIface sampleMsg), .deliver (linkAddr 1),
    .deliver (linkAddr 1), .deliver (linkAddr 1), .receiver (.ackTimer 0), .deliverBack (linkAddr 3)]

theorem next_packet_dropped
    : (∃ l₀ l, Fresh 0 0 l₀ ∧ run 0 0 l₀ sampleWraparound = some l ∧ l.DropsNext (linkAddr 1))
      ∧ ∃ l₀ l, Fresh 0 0 l₀ ∧ run 0 0 l₀ sampleConditional = some l ∧ l.DropsNext (linkAddr 1) := by
  constructor
  . have h : (run 0 0 (sampleLink 0xfffffffe) sampleWraparound).any fun l => l.DropsNext (linkAddr 1) := by
      decide +kernel
    rcases (any_eq_true _ _).mp h with ⟨l, hrun, h⟩
    exact ⟨_, l, sampleLink_fresh (n := 0xfffffffd) (by decide), hrun, of_decide_eq_true h⟩
  have h : (run 0 0 (sampleLink 1) sampleConditional).any fun l => l.DropsNext (linkAddr 1) := by
    decide +kernel
  rcases (any_eq_true _ _).mp h with ⟨l, hrun, h⟩
  exact ⟨_, l, sampleLink_fresh (n := 0) (by decide), hrun, of_decide_eq_true h⟩

end Link

end Eigrpd
