import OpenBSDCiv.Libutil.Impl.Ibuf

namespace Libutil

open List

structure Ibuf.Wf (buf : Ibuf) : Prop where
  rpos_le : buf.rpos ≤ buf.wpos
  wpos_le : buf.wpos ≤ buf.buf.length

variable {buf : Ibuf} {len : Nat} {fd : Int}

theorem ibufData_length (h : buf.Wf) : (ibufData buf).length = ibufSize buf := by
  have := h.wpos_le
  simp only [ibufData, ibufSize, length_drop, length_take]
  omega

theorem ibufFromBuffer_wf (data : List UInt8) : (ibufFromBuffer data).Wf :=
  ⟨Nat.zero_le _, Nat.le_refl _⟩

@[simp]
theorem ibufData_fromBuffer (data : List UInt8) : ibufData (ibufFromBuffer data) = data := by
  simp [ibufData, ibufFromBuffer]

theorem ibufData_advance (buf : Ibuf) (len : Nat)
    : ibufData { buf with rpos := buf.rpos + len } = (ibufData buf).drop len := by
  simp [ibufData]

theorem Ibuf.Wf.advance (h : buf.Wf) (hlen : len ≤ ibufSize buf)
    : Ibuf.Wf { buf with rpos := buf.rpos + len } := by
  have := h.rpos_le
  simp only [ibufSize] at hlen
  constructor
  . simp only
    omega
  . exact h.wpos_le

theorem ibufGetIbuf_eq (hlen : len ≤ ibufSize buf)
    : ibufGetIbuf buf len
        = some (ibufFromBuffer ((ibufData buf).take len), { buf with rpos := buf.rpos + len }) := by
  simp only [ibufGetIbuf, Nat.not_lt.mpr hlen, ↓reduceIte]

theorem ibufGet_eq (hlen : len ≤ ibufSize buf)
    : ibufGet buf len = some ((ibufData buf).take len, { buf with rpos := buf.rpos + len }) := by
  simp only [ibufGet, Nat.not_lt.mpr hlen, ↓reduceIte]

def dynIbuf (len max : Nat) (bs : List UInt8) (fd : Int) : Ibuf :=
  { buf := bs ++ List.replicate (len - bs.length) 0, max, wpos := bs.length, rpos := 0, fd }

def partialIbuf (len : Nat) (bs : List UInt8) (fd : Int) : Ibuf :=
  dynIbuf len len bs fd

def frameIbuf (bs : List UInt8) (fd : Int) : Ibuf :=
  { buf := bs, max := bs.length, wpos := bs.length, rpos := 0, fd }

theorem dynIbuf_length (max : Nat) (bs : List UInt8) (fd : Int)
    : dynIbuf bs.length max bs fd = { buf := bs, max, wpos := bs.length, rpos := 0, fd } := by
  simp [dynIbuf]

theorem partialIbuf_length (bs : List UInt8) (fd : Int)
    : partialIbuf bs.length bs fd = frameIbuf bs fd := by
  rw [partialIbuf, dynIbuf_length, frameIbuf]

theorem ibufOpen_eq (len : Nat) : ibufOpen true len = some (partialIbuf len [] (-1)) := by
  simp [ibufOpen, partialIbuf, dynIbuf]

theorem ibufDynamic_eq (len max : Nat) (hmax : max ≠ 0) (hlen : len ≤ max)
    : ibufDynamic true len max = some (dynIbuf len max [] (-1)) := by
  have hnot : ¬(max = 0 ∨ max < len) := by omega
  simp [ibufDynamic, hnot, dynIbuf]

@[simp]
theorem ibufData_frameIbuf (bs : List UInt8) (fd : Int) : ibufData (frameIbuf bs fd) = bs := by
  simp [ibufData, frameIbuf]

theorem ne_stack_of_le (hfd : -1 ≤ fd) : fd ≠ ibufFdMarkOnStack := by
  simp only [ibufFdMarkOnStack]
  omega

theorem ibufLeft_partialIbuf (len : Nat) (bs : List UInt8) (fd : Int) (hfd : -1 ≤ fd)
    : ibufLeft (partialIbuf len bs fd) = len - bs.length := by
  simp [ibufLeft, partialIbuf, dynIbuf, ne_stack_of_le hfd]

def normFd (fd : Int) : Int :=
  if fd ≥ 0 then fd else -1

theorem normFd_le (fd : Int) : -1 ≤ normFd fd := by
  unfold normFd
  split <;> omega

theorem normFd_of_le (hfd : -1 ≤ fd) : normFd fd = fd := by
  unfold normFd
  split <;> omega

theorem ibufFdSet_dynIbuf (len max : Nat) (bs : List UInt8) (fd : Int)
    : ibufFdSet (dynIbuf len max bs (-1)) fd = (dynIbuf len max bs (normFd fd), []) := by
  by_cases h : fd ≥ 0
  . simp [ibufFdSet, dynIbuf, ibufFdMarkOnStack, normFd, h]
  . simp [ibufFdSet, dynIbuf, ibufFdMarkOnStack, normFd, h]

theorem ibufAdd_dynIbuf (mem : Bool) (len max : Nat) (bs data : List UInt8) (fd : Int)
    (hfd : -1 ≤ fd) (hlen : bs.length + data.length ≤ len) (hmax : len ≤ sizeMax)
    : ibufAdd mem (dynIbuf len max bs fd) data = some (dynIbuf len max (bs ++ data) fd) := by
  unfold ibufAdd
  split
  . next h =>
    obtain rfl : data = [] := length_eq_zero_iff.mp h
    simp
  have hroom : ¬(data.length > sizeMax - bs.length) := by omega
  have hsize : (bs ++ List.replicate (len - bs.length) (0 : UInt8)).length = len := by
    simp only [length_append, length_replicate]
    omega
  have hgrow : ¬(bs.length + data.length > len) := by omega
  simp only [ibufReserve, dynIbuf, hroom, ne_stack_of_le hfd, hsize, hgrow, ↓reduceIte]
  have hrest : len - bs.length - data.length = len - (bs.length + data.length) := by omega
  simp [memcpy, drop_append, drop_of_length_le, hrest]

theorem ibufAdd_partialIbuf (mem : Bool) (len : Nat) (bs data : List UInt8) (fd : Int)
    (hfd : -1 ≤ fd) (hlen : bs.length + data.length ≤ len) (hmax : len ≤ sizeMax)
    : ibufAdd mem (partialIbuf len bs fd) data = some (partialIbuf len (bs ++ data) fd) := by
  apply ibufAdd_dynIbuf
  . exact hfd
  . exact hlen
  . exact hmax

end Libutil
