import OpenBSDCiv.Dvmrpd.Report

namespace Dvmrpd

open List UInt16 Option

variable {nbr : Nbr} {m : Addr} {at_ : At} {buf : Nat → UInt8} {bs netid : List UInt8} {metric : UInt8} {p : Parsed}
variable {fuel : Nat}

theorem byteFfs_bounds {b : UInt8} (h : b ≠ 0) : 1 ≤ byteFfs b ∧ byteFfs b ≤ 8 := by
  have hall : ∀ n : Fin 256, n ≠ 0 → 1 ≤ byteFfs (.ofNat n) ∧ byteFfs (.ofNat n) ≤ 8 := by
    decide +kernel
  have hb := hall ⟨b.toNat, b.toNat_lt⟩
  rw [UInt8.ofNat_toNat] at hb
  apply hb
  intro hzero
  apply h
  apply UInt8.toNat_inj.mp
  exact Fin.mk.inj_iff.mp hzero

theorem netidLen_cases (m : Addr)
    : netidLen m = 4
      ∨ (netidLen m = 3 ∧ m.b3 = 0)
      ∨ (netidLen m = 2 ∧ m.b2 = 0 ∧ m.b3 = 0)
      ∨ (netidLen m = 1 ∧ m.b1 = 0 ∧ m.b2 = 0 ∧ m.b3 = 0)
      ∨ m = ⟨0, 0, 0, 0⟩ := by
  unfold netidLen mask2prefixlen prefixSize Addr.ffs
  rcases m with ⟨b0, b1, b2, b3⟩
  have h0 := @byteFfs_bounds b0
  have h1 := @byteFfs_bounds b1
  have h2 := @byteFfs_bounds b2
  have h3 := @byteFfs_bounds b3
  grind

theorem netidLen_zero : netidLen ⟨0, 0, 0, 0⟩ = 0 := by
  decide

-- the bytes behind the network are masked out
theorem and_eq_of_bytes {x y : Addr} (h : ∀ i < netidLen m, x.bytes[i]? = y.bytes[i]?)
    : x.and m = y.and m := by
  rcases x with ⟨x0, x1, x2, x3⟩
  rcases y with ⟨y0, y1, y2, y3⟩
  have h0 : 0 < netidLen m → x0 = y0 := fun hi => some.inj (h 0 hi)
  have h1 : 1 < netidLen m → x1 = y1 := fun hi => some.inj (h 1 hi)
  have h2 : 2 < netidLen m → x2 = y2 := fun hi => some.inj (h 2 hi)
  have h3 : 3 < netidLen m → x3 = y3 := fun hi => some.inj (h 3 hi)
  clear h
  rcases netidLen_cases m with hlen | ⟨hlen, hzero⟩ | ⟨hlen, hzero⟩ | ⟨hlen, hzero⟩ | hzero
  all_goals simp_all [Addr.and]

theorem netidLen_le (m : Addr) : netidLen m ≤ 4 := by
  rcases netidLen_cases m with hlen | ⟨hlen, _⟩ | ⟨hlen, _⟩ | ⟨hlen, _⟩ | hzero
  case inr.inr.inr.inr =>
    rw [hzero, netidLen_zero]
    omega
  all_goals omega

theorem ofBytes_bytes {i : Nat} (hi : i < 4) : (Addr.ofBytes bs).bytes[i]? = some (bs.getD i 0) := by
  have hcases : i = 0 ∨ i = 1 ∨ i = 2 ∨ i = 3 := by omega
  rcases hcases with rfl | rfl | rfl | rfl <;> rfl

theorem Holds.append {as : List UInt8} (h : Holds buf (as ++ bs))
    : Holds (fun i => buf (i + as.length)) bs := by
  intro i b hb
  apply h
  rw [getElem?_append_right (by omega)]
  rw [Nat.add_sub_cancel]
  exact hb

theorem Holds.and_eq (h : Holds buf (netid ++ bs)) (hlen : netid.length = netidLen m)
    : (Addr.mk (buf 0) (buf 1) (buf 2) (buf 3)).and m = (Addr.ofBytes netid).and m := by
  apply and_eq_of_bytes
  intro i hi
  have hfour := netidLen_le m
  have hget : netid[i]? = some (netid.getD i 0) := by
    rw [getD_eq_getElem?_getD, getElem?_eq_getElem (by omega)]
    rfl
  have hbuf := h i (netid.getD i 0) (by rw [getElem?_append_left (by omega), hget])
  rw [ofBytes_bytes (by omega), ← hbuf]
  have hcases : i = 0 ∨ i = 1 ∨ i = 2 ∨ i = 3 := by omega
  rcases hcases with rfl | rfl | rfl | rfl <;> rfl

theorem counter_pos {n : Nat} (h : n < 65536) : 0 < UInt16.ofNat n ↔ 0 < n := by
  rw [lt_iff_toNat_lt, toNat_ofNat_of_lt' h]
  rfl

def Parsed.masked (p : Parsed) : Parsed :=
  { p with read := max 4 (3 + p.read) }

def Parsed.cons (p : Parsed) (rr : RouteReport) (size : Nat) : Parsed :=
  ⟨rr :: p.reports, max 4 (size + p.read)⟩

section

variable (nbr) (fuel) (buf) (len : UInt16)

theorem loop_mask
    : recvReport.loop nbr (fuel + 1) buf len .mask
      = (recvReport.loop nbr fuel (fun i => buf (i + 3)) (len - 3) (.entry ⟨255, buf 0, buf 1, buf 2⟩)).map
        Parsed.masked := by
  rw [recvReport.loop]
  cases recvReport.loop nbr fuel (fun i => buf (i + 3)) (len - 3) (.entry ⟨255, buf 0, buf 1, buf 2⟩) <;> rfl

theorem loop_entry (m : Addr)
    : recvReport.loop nbr (fuel + 1) buf len (.entry m)
      = (if 0 < len - UInt16.ofNat (netidLen m + 1) then
          recvReport.loop nbr fuel (fun i => buf (i + (netidLen m + 1))) (len - UInt16.ofNat (netidLen m + 1))
            (.after m (buf (netidLen m)))
        else some ⟨[], 0⟩).map
        (Parsed.cons · (nbr.report ⟨buf 0, buf 1, buf 2, buf 3⟩ m (buf (netidLen m))) (netidLen m + 1)) := by
  rw [recvReport.loop]
  unfold At.after
  generalize len - ofNat (netidLen m + 1) = len'
  by_cases hpos : 0 < len'
  . by_cases hlast : buf (netidLen m) &&& LAST_MASK = 0
    . rw [if_pos ⟨hlast, hpos⟩, if_pos hpos, if_pos hlast]
      cases recvReport.loop nbr fuel (fun i => buf (i + (netidLen m + 1))) len' (.entry m) <;> rfl
    . rw [if_neg (fun h => hlast h.1), if_pos hpos, if_pos hpos, if_neg hlast]
      cases recvReport.loop nbr fuel (fun i => buf (i + (netidLen m + 1))) len' .mask <;> rfl
  . rw [if_neg (fun h => hpos h.2), if_neg hpos, if_neg hpos]
    rfl

end

def Reads (nbr : Nbr) (at_ : At) (bs : List UInt8) (p : Parsed) : Prop :=
  ∀ buf, Holds buf bs → ∃ fuel, recvReport.loop nbr fuel buf (.ofNat bs.length) at_ = some p

theorem reads_mask {b0 b1 b2 : UInt8} (h : Reads nbr (.entry ⟨255, b0, b1, b2⟩) bs p)
    : Reads nbr .mask (b0 :: b1 :: b2 :: bs) p.masked := by
  intro buf hbuf
  have hrest : Holds buf ([b0, b1, b2] ++ bs) := hbuf
  rcases h _ hrest.append with ⟨fuel, hloop⟩
  refine ⟨fuel + 1, ?_⟩
  have hlen : ofNat (b0 :: b1 :: b2 :: bs).length - 3 = .ofNat bs.length :=
    (ofNat_sub (by simp)).symm
  rw [loop_mask, hlen, hbuf 0 b0 rfl, hbuf 1 b1 rfl, hbuf 2 b2 rfl]
  rw [show recvReport.loop nbr fuel (fun i => buf (i + 3)) (.ofNat bs.length) _ = some p from hloop]
  rfl

-- what the memory says about the first entry of a payload
theorem Holds.entry (nbr : Nbr) (h : Holds buf (netid ++ metric :: bs)) (hlen : netid.length = netidLen m)
    : buf (netidLen m) = metric
      ∧ nbr.report ⟨buf 0, buf 1, buf 2, buf 3⟩ m metric = nbr.report (.ofBytes netid) m metric
      ∧ Holds (fun i => buf (i + (netidLen m + 1))) bs
      ∧ UInt16.ofNat (netid ++ metric :: bs).length - UInt16.ofNat (netidLen m + 1) = .ofNat bs.length := by
  refine ⟨?_, ?_, ?_, ?_⟩
  . apply h
    rw [← hlen, getElem?_append_right (by omega), Nat.sub_self]
    rfl
  . unfold Nbr.report
    rw [h.and_eq hlen]
  . have hrest : Holds buf ((netid ++ [metric]) ++ bs) := by
      rw [append_assoc]
      exact h
    have hshift := hrest.append
    rw [length_append, hlen] at hshift
    exact hshift
  rw [← ofNat_sub (by simp; omega)]
  congr 1
  simp
  omega

theorem reads_last (metric : UInt8) (hlen : netid.length = netidLen m)
    : Reads nbr (.entry m) (netid ++ [metric])
      (Parsed.cons ⟨[], 0⟩ (nbr.report (.ofBytes netid) m metric) (netidLen m + 1)) := by
  intro buf hbuf
  rcases hbuf.entry nbr hlen with ⟨hmetric, hreport, _, hcounter⟩
  refine ⟨1, ?_⟩
  rw [loop_entry, hcounter, hmetric, hreport]
  rfl

theorem reads_more (hlen : netid.length = netidLen m) (h : Reads nbr (.after m metric) bs p) (hne : bs ≠ [])
    (hbound : bs.length < 65536)
    : Reads nbr (.entry m) (netid ++ metric :: bs)
      (p.cons (nbr.report (.ofBytes netid) m metric) (netidLen m + 1)) := by
  intro buf hbuf
  rcases hbuf.entry nbr hlen with ⟨hmetric, hreport, hrest, hcounter⟩
  rcases h _ hrest with ⟨fuel, hloop⟩
  refine ⟨fuel + 1, ?_⟩
  have hpos : 0 < ofNat bs.length := (counter_pos hbound).mpr (length_pos_of_ne_nil hne)
  rw [loop_entry, hcounter, hmetric, hreport, if_pos hpos, hloop]
  rfl

theorem Tiles.four_le (h : Tiles at_ bs) : 4 ≤ bs.length := by
  induction h with
  | mask h ih => simp only [length_cons]; omega
  | last _ _ _ | more _ _ _ => simp only [length_append, length_cons]; omega

theorem go_entry (nbr : Nbr) (fuel : Nat) (hlen : netid.length = netidLen m)
    : completeReports.go nbr (fuel + 1) (.entry m) (netid ++ metric :: bs)
      = nbr.report (.ofBytes netid) m metric :: completeReports.go nbr fuel (.after m metric) bs := by
  rw [completeReports.go, drop_left' hlen, take_left' hlen]

theorem Tiles.reads (nbr : Nbr) (h : Tiles at_ bs) (hbound : bs.length < 65536)
    : ∃ p, Reads nbr at_ bs p ∧ p.read ≤ bs.length
      ∧ ∀ fuel, bs.length ≤ fuel → completeReports.go nbr fuel at_ bs = p.reports := by
  induction h with
  | @mask b0 b1 b2 bs h ih =>
    have hlen : (b0 :: b1 :: b2 :: bs).length = bs.length + 3 := rfl
    have hfour := h.four_le
    rcases ih (by omega) with ⟨p, hreads, hread, hgo⟩
    refine ⟨p.masked, reads_mask hreads, ?_, ?_⟩
    . dsimp only [Parsed.masked]
      omega
    intro fuel hfuel
    cases fuel with
    | zero => omega
    | succ fuel =>
      apply hgo
      omega
  | @last m netid metric hlen hfour =>
    refine ⟨_, reads_last metric hlen, ?_, ?_⟩
    . dsimp only [Parsed.cons]
      rw [length_append, length_singleton]
      omega
    intro fuel hfuel
    rw [length_append, length_singleton] at hfuel
    cases fuel with
    | zero => omega
    | succ fuel =>
      rw [go_entry nbr fuel hlen]
      cases fuel with
      | zero => omega
      | succ fuel =>
        congr 1
        unfold At.after
        split
        . rw [completeReports.go, drop_nil]
        . rfl
  | @more m netid metric bs hlen h ih =>
    have hlength : (netid ++ metric :: bs).length = netidLen m + 1 + bs.length := by
      rw [length_append, length_cons, hlen]
      omega
    have hfour := h.four_le
    rcases ih (by omega) with ⟨p, hreads, hread, hgo⟩
    refine ⟨_, reads_more hlen hreads (ne_nil_of_length_pos (by omega)) (by omega), ?_, ?_⟩
    . dsimp only [Parsed.cons]
      omega
    intro fuel hfuel
    cases fuel with
    | zero => omega
    | succ fuel =>
      rw [go_entry nbr fuel hlen, hgo fuel (by omega)]
      rfl

theorem tiles_of_loop (hbuf : Holds buf bs) (hbound : bs.length < 65536)
    (hloop : recvReport.loop nbr fuel buf (.ofNat bs.length) at_ = some p) (hread : p.read ≤ bs.length)
    : Tiles at_ bs := by
  induction fuel generalizing buf bs at_ p with
  | zero => contradiction
  | succ fuel ih =>
    cases at_ with
    | mask =>
      rw [loop_mask, map_eq_some_iff] at hloop
      rcases hloop with ⟨p', hloop, rfl⟩
      dsimp only [Parsed.masked] at hread
      match bs, hbuf, hread with
      | b0 :: b1 :: b2 :: bs, hbuf, hread =>
        have hlen : ofNat (b0 :: b1 :: b2 :: bs).length - 3 = .ofNat bs.length :=
          (ofNat_sub (by simp)).symm
        have hlength : (b0 :: b1 :: b2 :: bs).length = bs.length + 3 := rfl
        rw [hlen, hbuf 0 b0 rfl, hbuf 1 b1 rfl, hbuf 2 b2 rfl] at hloop
        have hrest : Holds buf ([b0, b1, b2] ++ bs) := hbuf
        exact .mask (ih hrest.append (by omega) hloop (by omega))
      | [], _, hread | [_], _, hread | [_, _], _, hread =>
        simp only [length_cons, length_nil] at hread
        omega
    | entry m =>
      have hsize : max 4 (netidLen m + 1) ≤ p.read := by
        rw [loop_entry, map_eq_some_iff] at hloop
        rcases hloop with ⟨p', _, rfl⟩
        dsimp only [Parsed.cons]
        omega
      -- the read of the metric was inside of the payload, so the entry is complete
      have hsplit : ∃ netid metric rest, bs = netid ++ metric :: rest ∧ netid.length = netidLen m :=
        ⟨bs.take (netidLen m), bs[netidLen m], bs.drop (netidLen m + 1), by simp, by simp; omega⟩
      rcases hsplit with ⟨netid, metric, rest, rfl, hlen⟩
      rcases hbuf.entry nbr hlen with ⟨hmetric, _, hrest, hcounter⟩
      have hlength : (netid ++ metric :: rest).length = netidLen m + 1 + rest.length := by
        rw [length_append, length_cons, hlen]
        omega
      rw [loop_entry, hcounter, hmetric, map_eq_some_iff] at hloop
      rcases hloop with ⟨p', hloop, rfl⟩
      dsimp only [Parsed.cons] at hread hsize
      split at hloop
      . exact .more hlen (ih hrest (by omega) hloop (by omega))
      rename_i hzero
      rw [counter_pos (by omega)] at hzero
      have hnil : rest = [] := length_eq_zero_iff.mp (by omega)
      subst hnil
      apply Tiles.last metric hlen
      rw [length_nil] at hlength
      omega

theorem recvReport_of_accepted (h : nbr.twoWay ∨ nbr.compat) (fuel : Nat) (buf : Nat → UInt8) (len : UInt16)
    : recvReport nbr fuel buf len = recvReport.loop nbr fuel buf len .mask := by
  apply if_neg
  rintro ⟨htwoWay, hcompat⟩
  exact h.elim htwoWay hcompat

-- the memory that holds a payload and nothing else
theorem holds_getD (bs : List UInt8) : Holds (fun i => bs.getD i 0) bs := by
  intro i b hb
  dsimp only
  rw [getD_eq_getElem?_getD, hb]
  rfl

section

variable (haccepted : nbr.twoWay ∨ nbr.compat) (hbound : bs.length < 65536)
include haccepted hbound

theorem tiles_of_readsInBounds (h : ReadsInBounds nbr bs) : Tiles .mask bs := by
  rcases h _ (holds_getD bs) with ⟨fuel, p, hrecv, hread, _⟩
  rw [recvReport_of_accepted haccepted] at hrecv
  exact tiles_of_loop (holds_getD bs) hbound hrecv hread

theorem readsInBounds_of_tiles (h : Tiles .mask bs) : ReadsInBounds nbr bs := by
  intro buf hbuf
  rcases h.reads nbr hbound with ⟨p, hreads, hread, hgo⟩
  rcases hreads buf hbuf with ⟨fuel, hloop⟩
  refine ⟨fuel, p, ?_, hread, (hgo _ (Nat.le_refl _)).symm⟩
  rw [recvReport_of_accepted haccepted]
  exact hloop

end

theorem readsInBounds_of_ignored (h : ¬(nbr.twoWay ∨ nbr.compat))
    : ReadsInBounds nbr bs ↔ completeReports nbr bs = [] := by
  have hrecv : ∀ fuel buf len, recvReport nbr fuel buf len = some ⟨[], 0⟩ := by
    intro fuel buf len
    apply if_pos
    exact not_or.mp h
  unfold ReadsInBounds
  simp only [hrecv, some.injEq, exists_eq_left', exists_const, Nat.zero_le, true_and]
  constructor
  . intro hall
    exact (hall _ (holds_getD bs)).symm
  . intro hnil _ _
    exact hnil.symm

theorem recvReport_readsInBounds_iff (nbr : Nbr) (payload : List UInt8) (hlen : payload.length ≤ 65535)
    : ReadsInBounds nbr payload
      ↔ ((nbr.twoWay ∨ nbr.compat) ∧ Tiles .mask payload)
        ∨ (¬(nbr.twoWay ∨ nbr.compat) ∧ completeReports nbr payload = []) := by
  by_cases haccepted : nbr.twoWay ∨ nbr.compat
  . simp only [haccepted, true_and, not_true_eq_false, false_and, or_false]
    constructor
    . exact tiles_of_readsInBounds haccepted (by omega)
    . exact readsInBounds_of_tiles haccepted (by omega)
  . rw [readsInBounds_of_ignored haccepted]
    simp only [haccepted, false_and, not_false_eq_true, true_and, false_or]

def sampleNbr : Nbr :=
  { id := ⟨192, 0, 2, 1⟩, twoWay := true, compat := false, ifindex := 1 }

-- 10.0.0.0/8 and 11.0.0.0/8 with one mask, then 192.0.2.0/24 with another
theorem recvReport_readsInBounds_masks
    : ReadsInBounds sampleNbr [0, 0, 0, 10, 1, 11, 129, 255, 255, 0, 192, 0, 2, 129] := by
  apply (recvReport_readsInBounds_iff sampleNbr _ (by decide)).mpr
  left
  refine ⟨.inl rfl, .mask ?_⟩
  apply @Tiles.more ⟨255, 0, 0, 0⟩ [10] 1 _ rfl
  apply @Tiles.more ⟨255, 0, 0, 0⟩ [11] 129 _ rfl
  apply Tiles.mask
  exact @Tiles.last ⟨255, 255, 255, 0⟩ [192, 0, 2] 129 rfl (by decide)

-- a complete report of 10.0.0.0/8: the network is read with four bytes where two are left
theorem recvReport_not_readsInBounds : ¬ReadsInBounds sampleNbr [0, 0, 0, 10, 129] := by
  intro h
  have htiles := tiles_of_readsInBounds (.inl rfl) (by decide) h
  cases htiles with
  | mask hrest =>
    have hfour := hrest.four_le
    contradiction

end Dvmrpd
