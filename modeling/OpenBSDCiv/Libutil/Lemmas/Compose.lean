import OpenBSDCiv.Libutil.Lemmas.Ibuf
import OpenBSDCiv.Libutil.Impl.Imsg

namespace Libutil

open BitVec

section

variable {x : UInt32}

theorem getLsbD_imsgFdMark (i : Nat) : imsgFdMark.toBitVec.getLsbD i = decide (i = 31) := by
  have hmark : imsgFdMark.toBitVec = twoPow 32 31 := by decide
  rw [hmark, getLsbD_twoPow]
  simp only [Nat.lt_add_one, decide_true, Bool.true_and, decide_eq_decide]
  omega

section

variable (h : x.toNat < 2 ^ 31)
include h

theorem getLsbD_of_lt : x.toBitVec.getLsbD 31 = false := by
  rw [getLsbD]
  apply Nat.testBit_lt_two_pow
  exact h

theorem wireLen_and_not_imsgFdMark (marked : Prop) [Decidable marked]
    : (if marked then x ||| imsgFdMark else x) &&& ~~~imsgFdMark = x := by
  apply UInt32.toBitVec_inj.mp
  apply eq_of_getLsbD_eq
  intro i hi
  split
  all_goals
    simp only [UInt32.toBitVec_and, UInt32.toBitVec_or, UInt32.toBitVec_not, getLsbD_and, getLsbD_or, getLsbD_not,
      getLsbD_imsgFdMark]
    by_cases h31 : i = 31
    . subst h31
      rw [getLsbD_of_lt h]
      rfl
    . simp only [hi, h31, decide_true, decide_false, Bool.or_false, Bool.not_false, Bool.and_true]

theorem and_imsgFdMark : x &&& imsgFdMark = 0 := by
  apply UInt32.toBitVec_inj.mp
  apply eq_of_getLsbD_eq
  intro i hi
  simp only [UInt32.toBitVec_and, getLsbD_and, getLsbD_imsgFdMark]
  by_cases h31 : i = 31
  . subst h31
    rw [getLsbD_of_lt h]
    rfl
  . simp [h31]

end

theorem or_imsgFdMark_and : (x ||| imsgFdMark) &&& imsgFdMark ≠ 0 := by
  intro h
  have hbit := congrArg (fun y : UInt32 => y.toBitVec.getLsbD 31) h
  simp only [UInt32.toBitVec_and, UInt32.toBitVec_or, getLsbD_and, getLsbD_or,
    getLsbD_imsgFdMark, decide_true, Bool.or_true, Bool.and_true] at hbit
  contradiction

end

structure Msg where
  type : UInt32
  id : UInt32
  pid : UInt32
  fd : Int
  data : List UInt8
  deriving DecidableEq

namespace Msg

variable (msg : Msg)

def len : Nat :=
  imsgHeaderSize + msg.data.length

def wireLen : UInt32 :=
  if msg.fd ≥ 0 then UInt32.ofNat msg.len ||| imsgFdMark else UInt32.ofNat msg.len

def hdr (pid len : UInt32) : ImsgHdr :=
  { type := msg.type, len, peerid := msg.id, pid := if msg.pid = 0 then pid else msg.pid }

def bytes (pid : UInt32) : List UInt8 :=
  (msg.hdr pid msg.wireLen).encode ++ msg.data

def Fits (maxsize : UInt32) : Prop :=
  msg.len ≤ maxsize.toNat

theorem bytes_length (pid : UInt32) : (msg.bytes pid).length = msg.len := by
  simp [bytes, len, imsgHeaderSize]

def ibuf (maxsize pid : UInt32) : Ibuf :=
  {
    buf := msg.bytes pid
    max := maxsize.toNat
    wpos := msg.len
    rpos := 0
    fd := normFd msg.fd
  }

end Msg

theorem memcpy_len (msg : Msg) (pid len : UInt32)
    : memcpy ((msg.hdr pid 0).encode ++ msg.data) 4 (Bytes.toLE 4 len.toNat)
        = (msg.hdr pid len).encode ++ msg.data := by
  simp [memcpy, ImsgHdr.encode, Msg.hdr, List.drop_append, List.drop_of_length_le]

section

variable (imsgbuf : Imsgbuf) (msg : Msg) (h : msg.Fits imsgbuf.maxsize)
include imsgbuf msg h

theorem imsgCreate_eq
    : imsgCreate (fun _ => true) imsgbuf msg.type msg.id msg.pid msg.data.length
        = some (dynIbuf msg.len imsgbuf.maxsize.toNat (msg.hdr imsgbuf.pid 0).encode (-1)) := by
  have hlt := imsgbuf.maxsize.toNat_lt
  have hfits : imsgHeaderSize + msg.data.length ≤ imsgbuf.maxsize.toNat := h
  have hmod : (msg.data.length + imsgHeaderSize) % 2 ^ 64 = msg.len := by
    rw [Nat.mod_eq_of_lt (by omega), Nat.add_comm]
    rfl
  have hle : ¬(msg.len > imsgbuf.maxsize.toNat) := Nat.not_lt.mpr h
  have hpos : imsgbuf.maxsize.toNat ≠ 0 := by
    simp only [imsgHeaderSize] at hfits
    omega
  simp only [imsgCreate, hmod, hle, ↓reduceIte]
  rw [ibufDynamic_eq _ _ hpos h]
  simp only
  rw [ibufAdd_dynIbuf]
  . rfl
  . omega
  . simp [Msg.len, imsgHeaderSize]
  . simp only [Msg.len, sizeMax]
    omega

theorem imsgCompose_eq
    : imsgCompose (fun _ => true) imsgbuf msg.type msg.id msg.pid msg.fd msg.data
        =
      (1,
        { imsgbuf with
          w :=
            { imsgbuf.w with
              bufs :=
                {
                  bufs := imsgbuf.w.bufs.bufs ++ [msg.ibuf imsgbuf.maxsize imsgbuf.pid]
                  queued := imsgbuf.w.bufs.queued + 1
                }
            }
        }, []) := by
  have hlt := imsgbuf.maxsize.toNat_lt
  have hfits : imsgHeaderSize + msg.data.length ≤ imsgbuf.maxsize.toNat := h
  have hlen : ((msg.hdr imsgbuf.pid 0).encode ++ msg.data).length = msg.len := by
    simp [Msg.len, imsgHeaderSize]
  unfold imsgCompose
  rw [imsgCreate_eq imsgbuf msg h]
  simp only
  rw [ibufAdd_dynIbuf]
  . simp only [imsgFinish, ibufFdSet_dynIbuf]
    have hdyn := dynIbuf_length imsgbuf.maxsize.toNat ((msg.hdr imsgbuf.pid 0).encode ++ msg.data)
      (normFd msg.fd)
    rw [hlen] at hdyn
    rw [hdyn]
    have hseek : ¬(msg.len < 4 ∨ sizeMax - 4 < 4 ∨ msg.len < 8) := by
      simp only [Msg.len, imsgHeaderSize, sizeMax]
      omega
    have hwire : (if normFd msg.fd ≥ 0 then UInt32.ofNat msg.len ||| imsgFdMark
        else UInt32.ofNat msg.len) = msg.wireLen := by
      unfold normFd Msg.wireLen
      split <;> simp_all
    simp only [imsgClose, ibufFdAvail, ibufSize, Nat.sub_zero, decide_eq_true_eq, hwire, ibufSetH32,
      ibufSet, ibufSeek, Bytes.toLE_length, hseek, ↓reduceIte, Nat.zero_add, memcpy_len,
      Option.getD_some, ibufClose, ibufqPush, ne_stack_of_le (normFd_le msg.fd), Nat.reduceAdd]
    rfl
  . omega
  . rw [← List.length_append, hlen]
  . simp only [Msg.len, sizeMax]
    omega

end

end Libutil
