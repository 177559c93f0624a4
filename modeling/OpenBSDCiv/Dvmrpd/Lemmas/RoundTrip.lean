import OpenBSDCiv.Dvmrpd.Lemmas.RecvReport

namespace Dvmrpd

open List

variable {nbr : Nbr} {ifindex : UInt16} {le rr : RouteReport} {rest rrList : List RouteReport} {prefixlen : Nat}

theorem mask2prefixlen_prefixlen2mask
    : ∀ prefixlen : Fin 33, mask2prefixlen (prefixlen2mask prefixlen) = prefixlen := by
  decide +kernel

theorem prefixlen2mask_b0
    : ∀ prefixlen : Fin 33, 8 ≤ prefixlen.val → (prefixlen2mask prefixlen).b0 = 255 := by
  decide +kernel

theorem flagged_metric
    : ∀ n : Fin 128, (.ofNat n ||| LAST_MASK) &&& METRIC_MASK = UInt8.ofNat n
      ∧ UInt8.ofNat n &&& METRIC_MASK = UInt8.ofNat n
      ∧ UInt8.ofNat n &&& LAST_MASK = 0
      ∧ (.ofNat n ||| LAST_MASK) &&& LAST_MASK ≠ (0 : UInt8) := by
  decide +kernel

-- a route whose mask is written in three bytes
structure RouteReport.Masked (rr : RouteReport) : Prop extends rr.Sendable where
  ne_default : rr.mask ≠ ⟨0, 0, 0, 0⟩

theorem RouteReport.Masked.b0 (h : rr.Masked) : rr.mask.b0 = 255 := by
  rcases h.mask with ⟨prefixlen, hzero | hle, hmask⟩
  . have hdefault : rr.mask = ⟨0, 0, 0, 0⟩ := by
      rw [hmask, hzero]
      rfl
    exact absurd hdefault h.ne_default
  . rw [hmask]
    exact prefixlen2mask_b0 prefixlen hle

theorem RouteReport.Sendable.mask_inj (h : rr.Sendable) (h' : le.Sendable)
    (heq : mask2prefixlen rr.mask = mask2prefixlen le.mask)
    : rr.mask = le.mask := by
  rcases h.mask with ⟨p, _, hmask⟩
  rcases h'.mask with ⟨p', _, hmask'⟩
  rw [hmask, hmask', mask2prefixlen_prefixlen2mask, mask2prefixlen_prefixlen2mask] at heq
  rw [hmask, hmask', heq]

theorem metricOf_flags (ifindex : UInt16) (h : le.Sendable)
    : (metricOf ifindex le ||| LAST_MASK) &&& METRIC_MASK = metricOf ifindex le
      ∧ metricOf ifindex le &&& METRIC_MASK = metricOf ifindex le
      ∧ metricOf ifindex le &&& LAST_MASK = 0
      ∧ (metricOf ifindex le ||| LAST_MASK) &&& LAST_MASK ≠ 0 := by
  have hle : le.metric.toNat ≤ 31 := UInt8.le_iff_toNat_le.mp h.metric
  have hlt : (metricOf ifindex le).toNat < 128 := by
    unfold metricOf
    split
    . rw [UInt8.toNat_add, show INFINITY_METRIC.toNat = 31 from rfl]
      omega
    . omega
  have hflag := flagged_metric ⟨_, hlt⟩
  rw [UInt8.ofNat_toNat] at hflag
  exact hflag

theorem sentMetric_and (ifindex : UInt16) (h : le.Sendable) (le2 : Option RouteReport)
    : sentMetric ifindex le le2 &&& METRIC_MASK = metricOf ifindex le := by
  have hflag := metricOf_flags ifindex h
  unfold sentMetric
  split
  . exact hflag.2.1
  . exact hflag.1

theorem report_sent (nbr : Nbr) (ifindex : UInt16) (h : le.Masked) (le2 : Option RouteReport)
    : nbr.report (.ofBytes (le.net.bytes.take (netidLen le.mask))) le.mask (sentMetric ifindex le le2)
      = received nbr ifindex le := by
  have hnet : (Addr.ofBytes (le.net.bytes.take (netidLen le.mask))).and le.mask = le.net := by
    conv => rhs; rw [← h.net]
    apply and_eq_of_bytes
    intro i hi
    have hle := netidLen_le le.mask
    rw [ofBytes_bytes (by omega), getD_eq_getElem?_getD, getElem?_take_of_lt hi]
    have hlen : i < le.net.bytes.length := by
      show i < 4
      omega
    rw [getElem?_eq_getElem hlen]
    rfl
  unfold Nbr.report received
  rw [hnet, sentMetric_and ifindex h.toSendable le2, if_neg h.ne_default]

-- where the receiver is when the sender is about to write the first entry of the list
def receiverAt (prefixlen : Nat) : List RouteReport → At
  | [] => .mask
  | le :: _ => if prefixlen = mask2prefixlen le.mask then .entry le.mask else .mask

theorem after_sentMetric (ifindex : UInt16) (h : ∀ rr ∈ le :: rest, rr.Masked) (hne : rest ≠ [])
    : At.after le.mask (sentMetric ifindex le rest.head?) = receiverAt (mask2prefixlen le.mask) rest := by
  cases rest with
  | nil => contradiction
  | cons le2 rest =>
    have hle := (h le mem_cons_self).toSendable
    have hle2 := (h le2 (mem_cons_of_mem _ mem_cons_self)).toSendable
    have hflag := metricOf_flags ifindex hle
    unfold At.after sentMetric receiverAt
    simp only [List.head?_cons, Option.any_some, decide_eq_true_eq]
    by_cases hsame : mask2prefixlen le2.mask = mask2prefixlen le.mask
    . rw [if_pos hsame, if_pos hflag.2.2.1, if_pos hsame.symm, hle2.mask_inj hle hsame]
    . rw [if_neg hsame, if_neg hflag.2.2.2, if_neg (Ne.symm hsame)]

theorem entryBytes_length (ifindex : UInt16) (prefixlen : Nat) (le : RouteReport) (le2 : Option RouteReport)
    : (entryBytes ifindex prefixlen le le2).length ≤ 8 := by
  unfold entryBytes
  rw [length_append, length_append, length_take, length_singleton]
  have hle := netidLen_le le.mask
  split
  . simp only [Addr.bytes, drop_succ_cons, drop_zero, length_cons, length_nil]
    omega
  . rw [length_nil]
    omega

theorem packet_cons (buf : List UInt8) (h : buf.length < 1000)
    : rrListSend.packet ifindex prefixlen buf (le :: rest)
      = rrListSend.packet ifindex (mask2prefixlen le.mask) (buf ++ entryBytes ifindex prefixlen le rest.head?) rest := by
  rw [rrListSend.packet, if_pos h]

theorem netid_length (le : RouteReport)
    : (le.net.bytes.take (netidLen le.mask)).length = netidLen le.mask := by
  rw [length_take]
  exact Nat.min_eq_left (netidLen_le le.mask)

-- the receiver takes the mask of an entry if the sender wrote one
theorem reads_entryBytes (prefixlen : Nat) {bs : List UInt8} {p : Parsed} (hle : le.Masked)
    (h : Reads nbr (.entry le.mask) (le.net.bytes.take (netidLen le.mask) ++ sentMetric ifindex le rest.head? :: bs) p)
    : ∃ p', Reads nbr (receiverAt prefixlen (le :: rest)) (entryBytes ifindex prefixlen le rest.head? ++ bs) p'
      ∧ p'.reports = p.reports := by
  have happend : entryBytes ifindex prefixlen le rest.head? ++ bs
      = (if prefixlen ≠ mask2prefixlen le.mask then le.mask.bytes.drop 1 else [])
        ++ (le.net.bytes.take (netidLen le.mask) ++ sentMetric ifindex le rest.head? :: bs) := by
    unfold entryBytes
    simp only [append_assoc, cons_append, nil_append]
  rw [happend]
  generalize le.net.bytes.take (netidLen le.mask) ++ sentMetric ifindex le rest.head? :: bs = entry at h ⊢
  unfold receiverAt
  dsimp only
  by_cases hsame : prefixlen = mask2prefixlen le.mask
  . rw [if_neg (not_not.mpr hsame), if_pos hsame]
    exact ⟨p, h, rfl⟩
  rw [if_pos hsame, if_neg hsame]
  have hmask : le.mask = ⟨255, le.mask.b1, le.mask.b2, le.mask.b3⟩ := by
    rw [← hle.b0]
  rw [hmask] at h
  exact ⟨p.masked, reads_mask h, rfl⟩

theorem packet_reads (nbr : Nbr) (ifindex : UInt16) (prefixlen : Nat) (h : ∀ rr ∈ rrList, rr.Masked) (hne : rrList ≠ [])
    (buf : List UInt8) (hbuf : buf.length < 1000)
    : ∃ bytes taken p,
        rrListSend.packet ifindex prefixlen buf rrList = (buf ++ bytes, rrList.drop (taken + 1))
        ∧ bytes ≠ [] ∧ (buf ++ bytes).length ≤ 1008
        ∧ Reads nbr (receiverAt prefixlen rrList) bytes p
        ∧ p.reports = (rrList.take (taken + 1)).map (received nbr ifindex) := by
  induction rrList generalizing prefixlen buf with
  | nil => contradiction
  | cons le rest ih =>
    have hle := h le mem_cons_self
    have hlen := entryBytes_length ifindex prefixlen le rest.head?
    rw [packet_cons buf hbuf]
    -- the packet ends with this entry if it is the last one or if the packet is full
    by_cases hend : rest = [] ∨ 1000 ≤ (buf ++ entryBytes ifindex prefixlen le rest.head?).length
    . have hpacket : rrListSend.packet ifindex (mask2prefixlen le.mask)
          (buf ++ entryBytes ifindex prefixlen le rest.head?) rest
          = (buf ++ entryBytes ifindex prefixlen le rest.head?, rest) := by
        cases rest with
        | nil => rfl
        | cons le2 rest =>
          rw [rrListSend.packet, if_neg]
          have := hend.resolve_left (cons_ne_nil _ _)
          omega
      have hreads : Reads nbr _ _ _ := reads_last (sentMetric ifindex le rest.head?) (netid_length le)
      rcases reads_entryBytes prefixlen hle hreads with ⟨p, hp, hreports⟩
      rw [append_nil] at hp
      refine ⟨_, 0, p, hpacket, ?_, ?_, hp, ?_⟩
      . unfold entryBytes
        simp
      . rw [length_append]
        omega
      rw [hreports]
      rw [report_sent nbr ifindex hle rest.head?]
      rfl
    rcases not_or.mp hend with ⟨hrest, hfull⟩
    have hmasked : ∀ rr ∈ rest, rr.Masked := fun rr hmem => h rr (mem_cons_of_mem _ hmem)
    rcases ih (mask2prefixlen le.mask) hmasked hrest _ (Nat.lt_of_not_le hfull) with
      ⟨bytes, taken, p, hpacket, hbytes, hlength, hreads, hreports⟩
    have hbound : bytes.length < 65536 := by
      rw [length_append] at hlength
      omega
    rw [← after_sentMetric ifindex h hrest] at hreads
    have hmore := reads_more (netid_length le) hreads hbytes hbound
    rcases reads_entryBytes prefixlen hle hmore with ⟨p', hp', hreports'⟩
    refine ⟨_, taken + 1, p', ?_, ?_, ?_, hp', ?_⟩
    . rw [hpacket, append_assoc]
      rfl
    . exact append_ne_nil_of_right_ne_nil _ hbytes
    . rw [← append_assoc]
      exact hlength
    rw [hreports']
    dsimp only [Parsed.cons]
    rw [report_sent nbr ifindex hle rest.head?, hreports]
    rfl

theorem loop_roundTrips (haccepted : nbr.twoWay ∨ nbr.compat) (n : Nat) (h : ∀ rr ∈ rrList, rr.Masked)
    (hn : rrList.length ≤ n)
    : ∃ reports, List.Forall₂ (ReadAs nbr) (rrListSend.loop ifindex n rrList) reports
        ∧ reports.flatten = rrList.map (received nbr ifindex) := by
  induction n generalizing rrList with
  | zero =>
    have hnil : rrList = [] := length_eq_zero_iff.mp (by omega)
    subst hnil
    exact ⟨[], .nil, rfl⟩
  | succ n ih =>
    by_cases hne : rrList = []
    . subst hne
      exact ⟨[], .nil, rfl⟩
    rcases packet_reads nbr ifindex 0 h hne [] (by decide) with
      ⟨bytes, taken, p, hpacket, _, _, hreads, hreports⟩
    have hlength : (rrList.drop (taken + 1)).length ≤ n := by
      rw [length_drop]
      omega
    rcases ih (fun rr hmem => h rr (mem_of_mem_drop hmem)) hlength with ⟨reports, hall, hflat⟩
    refine ⟨p.reports :: reports, ?_, ?_⟩
    . have hloop : rrListSend.loop ifindex (n + 1) rrList
          = bytes :: rrListSend.loop ifindex n (rrList.drop (taken + 1)) := by
        rw [rrListSend.loop, hpacket]
        . rfl
        . exact hne
      rw [hloop]
      apply List.Forall₂.cons _ hall
      intro buf hbuf
      have hat : receiverAt 0 rrList = .mask := by
        cases rrList with
        | nil => rfl
        | cons le rest =>
          apply if_neg
          have hle := h le mem_cons_self
          rcases hle.mask with ⟨prefixlen, hprefixlen, hmask⟩
          rw [hmask, mask2prefixlen_prefixlen2mask]
          intro hzero
          apply hle.ne_default
          rw [hmask, ← hzero]
          rfl
      rw [hat] at hreads
      rcases hreads buf hbuf with ⟨fuel, hrecv⟩
      refine ⟨fuel, p, ?_, rfl⟩
      rw [recvReport_of_accepted haccepted]
      exact hrecv
    . rw [flatten_cons, hflat, hreports, ← map_append, take_append_drop]

theorem packet_append (ifindex : UInt16) (prefixlen : Nat) (buf : List UInt8) (rrList : List RouteReport)
    : ∃ tail, (rrListSend.packet ifindex prefixlen buf rrList).1 = buf ++ tail := by
  induction rrList generalizing prefixlen buf with
  | nil => exact ⟨[], (append_nil _).symm⟩
  | cons le rest ih =>
    by_cases hbuf : buf.length < 1000
    . rw [packet_cons buf hbuf]
      rcases ih (mask2prefixlen le.mask) (buf ++ entryBytes ifindex prefixlen le rest.head?) with ⟨tail, htail⟩
      exact ⟨_, htail.trans (append_assoc _ _ _)⟩
    . rw [rrListSend.packet, if_neg hbuf]
      exact ⟨[], (append_nil _).symm⟩

theorem ntohl_of_default (h : rr.Sendable) (hmask : rr.mask = ⟨0, 0, 0, 0⟩) : rr.net.ntohl = 0 := by
  have hnet := h.net
  rw [hmask] at hnet
  rw [← hnet]
  simp [Addr.and, Addr.ntohl]

theorem not_before_default (hrr : rr.Sendable) (hmask : rr.mask = ⟨0, 0, 0, 0⟩) : ¬le.Before rr := by
  rintro (hlt | ⟨_, hlt⟩)
  . rw [hmask] at hlt
    exact Nat.not_lt_zero _ hlt
  . rw [ntohl_of_default hrr hmask] at hlt
    exact Nat.not_lt_zero _ hlt

-- nothing is before the default route, so it is the first one and its entry is flagged
theorem Snapshot.default_first (ifindex : UInt16) (h : Snapshot rrList) (hmem : rr ∈ rrList) (hmask : rr.mask = ⟨0, 0, 0, 0⟩)
    : ∃ rest, rrList = rr :: rest ∧ entryBytes ifindex 0 rr rest.head? = [metricOf ifindex rr ||| LAST_MASK] := by
  cases rrList with
  | nil => contradiction
  | cons le rest =>
    have hrr := h.sendable rr hmem
    have hhead : rr = le := by
      rcases mem_cons.mp hmem with heq | hrest
      . exact heq
      . exact absurd (rel_of_pairwise_cons h.ordered hrest) (not_before_default hrr hmask)
    subst hhead
    refine ⟨rest, rfl, ?_⟩
    have hzero : mask2prefixlen rr.mask = 0 := by
      rw [hmask]
      rfl
    have hmetric : sentMetric ifindex rr rest.head? = metricOf ifindex rr ||| LAST_MASK := by
      apply if_neg
      simp only [Option.any_eq_true_iff_get, decide_eq_true_eq, not_exists]
      intro hsome hsame
      have hmem2 : rest.head?.get hsome ∈ rest := mem_of_mem_head? (Option.get_mem hsome)
      have hsend2 := h.sendable _ (mem_cons_of_mem _ hmem2)
      have hmask2 := (hsend2.mask_inj hrr hsame).trans hmask
      exact absurd (rel_of_pairwise_cons h.ordered hmem2) (not_before_default hsend2 hmask2)
    unfold entryBytes
    rw [hmetric, hzero, hmask]
    rfl

theorem not_roundTrips_of_default (haccepted : nbr.twoWay ∨ nbr.compat) (h : Snapshot rrList) (hmem : rr ∈ rrList)
    (hmask : rr.mask = ⟨0, 0, 0, 0⟩)
    : ¬RoundTrips nbr ifindex rrList := by
  rintro ⟨reports, hall, hflat⟩
  rcases h.default_first ifindex hmem hmask with ⟨rest, rfl, hbytes⟩
  rcases packet_append ifindex (mask2prefixlen rr.mask) [metricOf ifindex rr ||| LAST_MASK] rest with ⟨tail, htail⟩
  have hsend : ∃ packets, rrListSend ifindex (rr :: rest) = ((metricOf ifindex rr ||| LAST_MASK) :: tail) :: packets := by
    unfold rrListSend
    rw [length_cons, rrListSend.loop, packet_cons [] (by decide), hbytes]
    . dsimp only [nil_append]
      rw [htail]
      exact ⟨_, rfl⟩
    . exact cons_ne_nil _ _
  rcases hsend with ⟨packets, hsend⟩
  rw [hsend] at hall
  cases hall with
  | @cons _ rs _ reports' hrecv _ =>
    rcases hrecv _ (holds_getD _) with ⟨fuel, p, hp, rfl⟩
    rw [recvReport_of_accepted haccepted] at hp
    cases fuel with
    | zero => contradiction
    | succ fuel =>
      rw [loop_mask, Option.map_eq_some_iff] at hp
      rcases hp with ⟨p', hentry, rfl⟩
      cases fuel with
      | zero => contradiction
      | succ fuel =>
        rw [loop_entry, Option.map_eq_some_iff] at hentry
        rcases hentry with ⟨p'', _, rfl⟩
        have hfirst := (List.cons.inj hflat).1
        have hmasks := congrArg RouteReport.mask hfirst
        dsimp only [Nbr.report, received] at hmasks
        rw [if_pos hmask] at hmasks
        have hb1 : metricOf ifindex rr ||| LAST_MASK = 0 := congrArg Addr.b1 hmasks
        have hflag := metricOf_flags ifindex (h.sendable rr hmem)
        rw [hb1] at hflag
        exact hflag.2.2.2 rfl

theorem rrListSend_roundTrips_iff (nbr : Nbr) (haccepted : nbr.twoWay ∨ nbr.compat) (ifindex : UInt16)
    (rrList : List RouteReport) (h : Snapshot rrList)
    : RoundTrips nbr ifindex rrList ↔ ∀ rr ∈ rrList, rr.mask ≠ ⟨0, 0, 0, 0⟩ := by
  constructor
  . intro htrips rr hmem hmask
    exact not_roundTrips_of_default haccepted h hmem hmask htrips
  intro hne
  apply loop_roundTrips haccepted _ _ (Nat.le_refl _)
  intro rr hmem
  exact ⟨h.sendable rr hmem, hne rr hmem⟩

def sampleRoute (net : Addr) (prefixlen : Nat) (ifindex : UInt16) : RouteReport :=
  { net, mask := prefixlen2mask prefixlen, nexthop := ⟨0, 0, 0, 0⟩, metric := 1, ifindex }

def sampleDefault : RouteReport :=
  sampleRoute ⟨0, 0, 0, 0⟩ 0 2

-- two masks; the second route is poisoned on interface 3
def sampleRoutes : List RouteReport :=
  [sampleRoute ⟨10, 0, 0, 0⟩ 8 2, sampleRoute ⟨11, 0, 0, 0⟩ 8 3, sampleRoute ⟨192, 0, 2, 0⟩ 24 2]

theorem sampleSnapshot : Snapshot (sampleDefault :: sampleRoutes) where
  ordered := by
    unfold RouteReport.Before
    decide
  sendable := by
    simp only [sampleRoutes, mem_cons, not_mem_nil, or_false, forall_eq_or_imp, forall_eq]
    refine ⟨⟨⟨0, ?_, rfl⟩, rfl, ?_⟩, ⟨⟨8, ?_, rfl⟩, rfl, ?_⟩, ⟨⟨8, ?_, rfl⟩, rfl, ?_⟩, ⟨24, ?_, rfl⟩, rfl, ?_⟩
    all_goals decide

theorem rrListSend_roundTrips_masks : RoundTrips sampleNbr 3 sampleRoutes := by
  apply (rrListSend_roundTrips_iff sampleNbr (.inl rfl) 3 _ ⟨?_, ?_⟩).mpr
  . decide
  . exact (pairwise_cons.mp sampleSnapshot.ordered).2
  . exact (forall_mem_cons.mp sampleSnapshot.sendable).2

-- no mask is written for the default route, so its metric is read as part of the first mask
theorem rrListSend_not_roundTrips
    : Snapshot (sampleDefault :: sampleRoutes) ∧ ¬RoundTrips sampleNbr 3 (sampleDefault :: sampleRoutes) :=
  ⟨sampleSnapshot, not_roundTrips_of_default (.inl rfl) sampleSnapshot mem_cons_self rfl⟩

end Dvmrpd
