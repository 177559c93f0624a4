import Mathlib
import OpenBSDCiv.Libutil.Lemmas.Ibuf
import OpenBSDCiv.Libutil.Impl.Imsg

namespace Libutil

open List

theorem ibufAdd_data {mem : Bool} {buf buf' : Ibuf} {data : List UInt8} (hwf : buf.Wf)
    (h : ibufAdd mem buf data = some buf')
    : buf'.Wf ∧ ibufData buf' = ibufData buf ++ data := by
  have hle := hwf.rpos_le
  have hwpos := hwf.wpos_le
  have hdata : ∀ mem' : List UInt8, buf.buf <+: mem' → buf.wpos + data.length ≤ mem'.length →
      Ibuf.Wf { buf with buf := memcpy mem' buf.wpos data, wpos := buf.wpos + data.length }
        ∧ ibufData { buf with buf := memcpy mem' buf.wpos data, wpos := buf.wpos + data.length }
            = ibufData buf ++ data := by
    rintro mem' ⟨tail, rfl⟩ hlen
    have htake : (memcpy (buf.buf ++ tail) buf.wpos data).take (buf.wpos + data.length)
        = buf.buf.take buf.wpos ++ data := by
      unfold memcpy
      rw [take_append_of_le_length hwpos, take_left']
      simp only [length_append, length_take]
      omega
    constructor
    . constructor
      . simp only
        omega
      . simp only [memcpy, length_append, length_take, length_drop]
        omega
    unfold ibufData
    simp only
    rw [htake, drop_append_of_le_length]
    simp only [length_take]
    omega
  unfold ibufAdd at h
  split at h
  . next hempty =>
    obtain rfl : data = [] := length_eq_zero_iff.mp hempty
    cases h
    exact ⟨hwf, by simp⟩
  unfold ibufReserve at h
  split at h
  . contradiction
  rename_i hreserve
  split at hreserve
  . contradiction
  split at hreserve
  . contradiction
  split at hreserve
  . split at hreserve
    . contradiction
    split at hreserve
    . cases hreserve
      cases h
      apply hdata
      . exact prefix_append _ _
      . simp only [length_append, length_replicate]
        omega
    . contradiction
  cases hreserve
  cases h
  apply hdata
  . exact prefix_refl _
  . simp only
    omega

theorem ibufDynamic_data {mem : Bool} {len max : Nat} {buf : Ibuf} (h : ibufDynamic mem len max = some buf)
    : buf.Wf ∧ ibufData buf = [] := by
  unfold ibufDynamic at h
  split at h
  . contradiction
  split at h
  . cases h
    exact ⟨⟨Nat.le_refl _, Nat.zero_le _⟩, by simp [ibufData]⟩
  . contradiction

theorem imsgCreate_data {mem : Nat → Bool} {imsgbuf : Imsgbuf} {type id pid : UInt32} {datalen : Nat}
    {wbuf : Ibuf} (h : imsgCreate mem imsgbuf type id pid datalen = some wbuf)
    : wbuf.Wf ∧ (ibufData wbuf).length = imsgHeaderSize := by
  unfold imsgCreate at h
  dsimp only at h
  split at h
  . contradiction
  split at h
  . contradiction
  rename_i buf hdyn
  have ⟨hwf, hempty⟩ := ibufDynamic_data hdyn
  have ⟨hwf', hdata⟩ := ibufAdd_data hwf h
  refine ⟨hwf', ?_⟩
  rw [hdata, hempty]
  simp [imsgHeaderSize]

theorem memcpy_drop {mem data : List UInt8} {pos n : Nat} (hlen : pos + data.length ≤ mem.length)
    (hn : pos + data.length ≤ n)
    : (memcpy mem pos data).drop n = mem.drop n := by
  have htake : (mem.take pos ++ data).length = pos + data.length := by
    simp only [length_append, length_take]
    omega
  unfold memcpy
  rw [drop_append, drop_of_length_le (by omega), htake, nil_append, drop_drop]
  congr 1
  omega

theorem ibufSetH32_data {msg : Ibuf} (hwf : msg.Wf) (value : UInt32)
    : ((ibufSetH32 msg 4 value).getD msg).Wf
      ∧ ibufSize ((ibufSetH32 msg 4 value).getD msg) = ibufSize msg
      ∧ (ibufData ((ibufSetH32 msg 4 value).getD msg)).drop imsgHeaderSize
          = (ibufData msg).drop imsgHeaderSize := by
  have hle := hwf.rpos_le
  have hwpos := hwf.wpos_le
  unfold ibufSetH32 ibufSet ibufSeek
  by_cases hsize : ibufSize msg < 4 ∨ sizeMax - 4 < 4 ∨ ibufSize msg < 4 + 4
  . simp only [Bytes.toLE_length, hsize, ↓reduceIte, Option.getD_none]
    exact ⟨hwf, trivial, trivial⟩
  simp only [Bytes.toLE_length, hsize, ↓reduceIte, Option.getD_some]
  simp only [ibufSize] at hsize
  refine ⟨⟨?_, ?_⟩, rfl, ?_⟩
  . exact hle
  . simp only [memcpy, length_append, length_take, Bytes.toLE_length, length_drop]
    omega
  unfold ibufData
  simp only [drop_take, drop_drop]
  rw [memcpy_drop]
  . simp only [Bytes.toLE_length]
    omega
  . simp only [Bytes.toLE_length, imsgHeaderSize]
    omega

def Pushes (imsgbuf : Imsgbuf) (payload : List UInt8) (ret : Int) (imsgbuf' : Imsgbuf) : Prop :=
  ret = -1 ∧ imsgbuf' = imsgbuf
    ∨ ret = 1 ∧ ∃ buf hdr, imsgbuf'.w.bufs.bufs = imsgbuf.w.bufs.bufs ++ [buf]
        ∧ buf.Wf ∧ hdr.length = imsgHeaderSize ∧ ibufData buf = hdr ++ payload

section

variable {imsgbuf : Imsgbuf} {wbuf : Ibuf} {hdr payload : List UInt8}

theorem imsgClose_pushes (hwf : wbuf.Wf) (hlen : hdr.length = imsgHeaderSize) (hdata : ibufData wbuf = hdr ++ payload)
    : Pushes imsgbuf payload 1 (imsgClose imsgbuf wbuf).1 := by
  apply Or.inr
  refine ⟨rfl, ?_⟩
  unfold imsgClose
  dsimp only
  generalize (if ibufFdAvail wbuf = true then _ else _ : UInt32) = len
  have ⟨hwf', hsize, hdrop⟩ := ibufSetH32_data hwf len
  generalize (ibufSetH32 wbuf 4 len).getD wbuf = buf at *
  refine ⟨buf, (ibufData buf).take imsgHeaderSize, rfl, hwf', ?_, ?_⟩
  . rw [length_take, ibufData_length hwf', hsize, ← ibufData_length hwf, hdata, length_append]
    omega
  . rw [hdata, drop_left' hlen] at hdrop
    rw [← hdrop, take_append_drop]

theorem ibufFdSet_data (hwf : wbuf.Wf) (fd : Int)
    : (ibufFdSet wbuf fd).1.Wf ∧ ibufData (ibufFdSet wbuf fd).1 = ibufData wbuf := by
  unfold ibufFdSet
  dsimp only
  split
  . exact ⟨⟨hwf.rpos_le, hwf.wpos_le⟩, rfl⟩
  . exact ⟨⟨hwf.rpos_le, hwf.wpos_le⟩, rfl⟩

theorem imsgFinish_pushes (hwf : wbuf.Wf) (hlen : hdr.length = imsgHeaderSize) (hdata : ibufData wbuf = hdr ++ payload)
    (fd : Int)
    : Pushes imsgbuf payload (imsgFinish imsgbuf wbuf fd).1 (imsgFinish imsgbuf wbuf fd).2.1 := by
  have ⟨hwf', hdata'⟩ := ibufFdSet_data hwf fd
  exact imsgClose_pushes hwf' hlen (hdata'.trans hdata)

variable (mem : Nat → Bool)

theorem imsgCompose_pushes (type id pid : UInt32) (fd : Int) (data : List UInt8)
    : Pushes imsgbuf data (imsgCompose mem imsgbuf type id pid fd data).1
        (imsgCompose mem imsgbuf type id pid fd data).2.1 := by
  unfold imsgCompose
  split
  . exact Or.inl ⟨rfl, rfl⟩
  rename_i hcreate
  have ⟨hwf, hlen⟩ := imsgCreate_data hcreate
  split
  . exact Or.inl ⟨rfl, rfl⟩
  rename_i hadd
  have ⟨hwf', hdata⟩ := ibufAdd_data hwf hadd
  exact imsgFinish_pushes hwf' hlen hdata fd

theorem imsgComposev.addAll_data {mem : Nat → Bool} {k : Nat} {iov : List (List UInt8)} {wbuf' : Ibuf}
    (hwf : wbuf.Wf) (h : addAll mem k wbuf iov = .ok wbuf')
    : wbuf'.Wf ∧ ibufData wbuf' = ibufData wbuf ++ iov.flatten := by
  induction iov generalizing k wbuf with
  | nil =>
    cases h
    exact ⟨hwf, by simp⟩
  | cons data iov ih =>
    unfold addAll at h
    split at h
    . contradiction
    rename_i hadd
    have ⟨hwf', hdata⟩ := ibufAdd_data hwf hadd
    have ⟨hwf'', hdata'⟩ := ih hwf' h
    refine ⟨hwf'', ?_⟩
    rw [hdata', hdata, flatten_cons, append_assoc]

theorem imsgComposev_pushes (type id pid : UInt32) (fd : Int) (iov : List (List UInt8))
    : Pushes imsgbuf iov.flatten (imsgComposev mem imsgbuf type id pid fd iov).1
        (imsgComposev mem imsgbuf type id pid fd iov).2.1 := by
  unfold imsgComposev
  dsimp only
  split
  . exact Or.inl ⟨rfl, rfl⟩
  rename_i hcreate
  have ⟨hwf, hlen⟩ := imsgCreate_data hcreate
  split
  . exact Or.inl ⟨rfl, rfl⟩
  rename_i hadd
  have ⟨hwf', hdata⟩ := imsgComposev.addAll_data hwf hadd
  exact imsgFinish_pushes hwf' hlen hdata fd

theorem imsgForward_pushes (msg : Imsg)
    : Pushes imsgbuf ((ibufData (ibufRewind msg.buf)).drop imsgHeaderSize)
        (imsgForward mem imsgbuf msg).1 (imsgForward mem imsgbuf msg).2.1 := by
  unfold imsgForward
  dsimp only
  split
  . exact Or.inl ⟨rfl, rfl⟩
  rename_i buf hskip
  have hbuf : ibufData buf = (ibufData (ibufRewind msg.buf)).drop imsgHeaderSize := by
    unfold ibufSkip at hskip
    split at hskip
    . contradiction
    . cases hskip
      apply ibufData_advance
  split
  . exact Or.inl ⟨rfl, rfl⟩
  rename_i wbuf hcreate
  obtain ⟨hwf, hlen⟩ := imsgCreate_data hcreate
  split
  . exact Or.inl ⟨rfl, rfl⟩
  rename_i wbuf' hadd
  have hwbuf' : wbuf'.Wf ∧ ibufData wbuf' = ibufData wbuf ++ ibufData buf := by
    split at hadd
    . exact ibufAdd_data hwf hadd
    rename_i hzero
    cases hadd
    refine ⟨hwf, ?_⟩
    have : ibufData buf = [] := by
      simp only [ne_eq, Decidable.not_not, ibufSize] at hzero
      apply eq_nil_of_length_eq_zero
      simp only [ibufData, length_drop, length_take]
      omega
    rw [this, append_nil]
  rw [← hbuf]
  exact imsgClose_pushes hwbuf'.1 hlen hwbuf'.2

theorem imsgComposeIbuf_pushes (type id pid : UInt32) (buf : Ibuf)
    : (imsgComposeIbuf mem imsgbuf type id pid buf).1 = -1
        ∧ (imsgComposeIbuf mem imsgbuf type id pid buf).2.1 = imsgbuf
      ∨ (imsgComposeIbuf mem imsgbuf type id pid buf).1 = 1
        ∧ ∃ hdrbuf,
            (imsgComposeIbuf mem imsgbuf type id pid buf).2.1.w.bufs.bufs
              = imsgbuf.w.bufs.bufs ++ [hdrbuf, buf]
            ∧ hdrbuf.Wf ∧ (ibufData hdrbuf).length = imsgHeaderSize := by
  unfold imsgComposeIbuf
  split
  . exact Or.inl ⟨rfl, rfl⟩
  dsimp only
  split
  . exact Or.inl ⟨rfl, rfl⟩
  rename_i hdrbuf hopen
  split
  . exact Or.inl ⟨rfl, rfl⟩
  rename_i hdrbuf' hadd
  have hwf : hdrbuf.Wf ∧ ibufData hdrbuf = [] := by
    unfold ibufOpen at hopen
    split at hopen
    . cases hopen
      exact ⟨⟨Nat.le_refl _, Nat.zero_le _⟩, by simp [ibufData]⟩
    . contradiction
  obtain ⟨hwf', hdata⟩ := ibufAdd_data hwf.1 hadd
  apply Or.inr
  refine ⟨rfl, hdrbuf', ?_, hwf', ?_⟩
  . simp [ibufClose, ibufqPush]
  . rw [hdata, hwf.2]
    simp [imsgHeaderSize]

end

end Libutil
