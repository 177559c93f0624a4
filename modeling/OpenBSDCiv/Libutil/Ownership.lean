import OpenBSDCiv.Lib.FdTable
import OpenBSDCiv.Libutil.Lemmas.ComposeBalance

namespace Libutil
namespace Ownership

structure Process where
  bufs : List Imsgbuf
  msgs : List Imsg
  owned : List Int
  table : FdTable

inductive Call where
  | imsgCompose (i : Nat) (mem : Nat → Bool) (type id pid : UInt32) (fd : Int) (data : List UInt8)
  | imsgComposev (i : Nat) (mem : Nat → Bool) (type id pid : UInt32) (fd : Int)
      (iov : List (List UInt8))
  | imsgForward (i j : Nat) (mem : Nat → Bool)
  | msgbufWrite (i : Nat) (res : Sent)
  | ibufWrite (i : Nat) (res : Sent)
  | msgbufRead (i : Nat) (mem : Nat → Bool) (res : Received)
  | imsgbufGet (i : Nat)
  | imsgGetFd (j : Nat)
  | imsgFree (j : Nat)
  | msgbufClear (i : Nat)
  | ibufFdSet (j : Nat) (fd : Int)

def closedFds (effs : List Eff) : List Int :=
  effs.filterMap fun
    | .close fd => some fd
    | .abort => none

def applyEffs (t : FdTable) (effs : List Eff) : FdTable :=
  let t := t.closeAll (closedFds effs)
  if .abort ∈ effs then { t with bad := true } else t

def Process.setBuf (p : Process) (i : Nat) (imsgbuf : Imsgbuf) (effs : List Eff) : Process :=
  { p with bufs := p.bufs.set i imsgbuf, table := applyEffs p.table effs }

def Process.composed (p : Process) (i : Nat) (fd : Int) (out : Int × Imsgbuf × List Eff) : Process :=
  { p.setBuf i out.2.1 out.2.2 with owned := if out.1 = 1 then p.owned.erase fd else p.owned }

def Process.setW (p : Process) (i : Nat) (imsgbuf : Imsgbuf) (out : Msgbuf × List Eff) : Process :=
  p.setBuf i { imsgbuf with w := out.1 } out.2

def receivedOf : Received → List Int
  | .bytes _ control => receivedFds control
  | .again => []
  | .error => []

def Process.install (p : Process) (fds : List Int) : Process :=
  { p with table := { p.table with opened := p.table.opened ++ fds } }

structure KernelResult (t : FdTable) (res : Received) : Prop where
  fits : ∀ bs control, res = .bytes bs control → FitsControl control
  nodup : (t.opened ++ receivedOf res).Nodup

def Process.keep (p : Process) (fd : Int) : Process :=
  if fd ≥ 0 then { p with owned := fd :: p.owned } else p

inductive Step : Process → Call → Process → Prop where
  | imsgCompose {p : Process} {i : Nat} {imsgbuf : Imsgbuf} {mem : Nat → Bool}
      {type id pid : UInt32} {fd : Int} {data : List UInt8}
      (hbuf : p.bufs[i]? = some imsgbuf) (hfd : fd < 0 ∨ fd ∈ p.owned)
    : Step p (.imsgCompose i mem type id pid fd data)
        (p.composed i fd (Libutil.imsgCompose mem imsgbuf type id pid fd data))
  | imsgComposev {p : Process} {i : Nat} {imsgbuf : Imsgbuf} {mem : Nat → Bool}
      {type id pid : UInt32} {fd : Int} {iov : List (List UInt8)}
      (hbuf : p.bufs[i]? = some imsgbuf) (hfd : fd < 0 ∨ fd ∈ p.owned)
    : Step p (.imsgComposev i mem type id pid fd iov)
        (p.composed i fd (Libutil.imsgComposev mem imsgbuf type id pid fd iov))
  | imsgForward {p : Process} {i j : Nat} {imsgbuf : Imsgbuf} {msg : Imsg} {mem : Nat → Bool}
      (hbuf : p.bufs[i]? = some imsgbuf) (hmsg : p.msgs[j]? = some msg)
    : Step p (.imsgForward i j mem)
        { p.setBuf i (Libutil.imsgForward mem imsgbuf msg).2.1
            (Libutil.imsgForward mem imsgbuf msg).2.2.2 with
          msgs := p.msgs.set j (Libutil.imsgForward mem imsgbuf msg).2.2.1
        }
  | msgbufWrite {p : Process} {i : Nat} {imsgbuf : Imsgbuf} {res : Sent}
      (hbuf : p.bufs[i]? = some imsgbuf)
    : Step p (.msgbufWrite i res) (p.setW i imsgbuf (Libutil.msgbufWrite imsgbuf.w res).2)
  | ibufWrite {p : Process} {i : Nat} {imsgbuf : Imsgbuf} {res : Sent}
      (hbuf : p.bufs[i]? = some imsgbuf)
    : Step p (.ibufWrite i res) (p.setW i imsgbuf (Libutil.ibufWrite imsgbuf.w res).2)
  | msgbufRead {p : Process} {i : Nat} {imsgbuf : Imsgbuf} {mem : Nat → Bool} {res : Received}
      {ret : Int} {out : Msgbuf × List Eff}
      (hbuf : p.bufs[i]? = some imsgbuf) (hres : KernelResult p.table res)
      (hread : Libutil.msgbufRead (imsgParseHdr imsgbuf.maxsize) mem imsgbuf.w res = some (ret, out))
    : Step p (.msgbufRead i mem res) ((p.install (receivedOf res)).setW i imsgbuf out)
  | imsgbufGetEmpty {p : Process} {i : Nat} {imsgbuf : Imsgbuf}
      (hbuf : p.bufs[i]? = some imsgbuf) (hget : Libutil.imsgbufGet imsgbuf = .empty)
    : Step p (.imsgbufGet i) p
  | imsgbufGetError {p : Process} {i : Nat} {imsgbuf imsgbuf' : Imsgbuf} {lost : Ibuf}
      (hbuf : p.bufs[i]? = some imsgbuf) (hget : Libutil.imsgbufGet imsgbuf = .error lost imsgbuf')
    : Step p (.imsgbufGet i) (p.setBuf i imsgbuf' [])
  | imsgbufGet {p : Process} {i : Nat} {imsgbuf imsgbuf' : Imsgbuf} {msg : Imsg}
      (hbuf : p.bufs[i]? = some imsgbuf) (hget : Libutil.imsgbufGet imsgbuf = .message msg imsgbuf')
    : Step p (.imsgbufGet i) { p.setBuf i imsgbuf' [] with msgs := p.msgs ++ [msg] }
  | imsgGetFd {p : Process} {j : Nat} {msg : Imsg} (hmsg : p.msgs[j]? = some msg)
    : Step p (.imsgGetFd j)
        ({ p with msgs := p.msgs.set j (Libutil.imsgGetFd msg).2 }.keep (Libutil.imsgGetFd msg).1)
  | imsgFree {p : Process} {j : Nat} {msg : Imsg} (hmsg : p.msgs[j]? = some msg)
    : Step p (.imsgFree j)
        { p with msgs := p.msgs.eraseIdx j, table := applyEffs p.table (Libutil.imsgFree msg) }
  | msgbufClear {p : Process} {i : Nat} {imsgbuf : Imsgbuf} (hbuf : p.bufs[i]? = some imsgbuf)
    : Step p (.msgbufClear i) (p.setW i imsgbuf (Libutil.msgbufClear imsgbuf.w))
  | ibufFdSet {p : Process} {j : Nat} {msg : Imsg} {fd : Int} (hmsg : p.msgs[j]? = some msg)
      (hfd : fd < 0 ∨ fd ∈ p.owned)
    : Step p (.ibufFdSet j fd)
        { p with
          msgs := p.msgs.set j { msg with buf := (Libutil.ibufFdSet msg.buf fd).1 }
          owned := p.owned.erase fd
          table := applyEffs p.table (Libutil.ibufFdSet msg.buf fd).2
        }

inductive Run : Process → List Call → Process → Prop where
  | nil (p : Process) : Run p [] p
  | snoc {p p' p'' : Process} {calls : List Call} {call : Call} (hrun : Run p calls p')
      (hstep : Step p' call p'') : Run p (calls ++ [call]) p''

def Process.owners (k : Int) (p : Process) : Nat :=
  p.owned.count k + (p.bufs.map fun imsgbuf => imsgbuf.w.owns k).sum
    + (p.msgs.map fun msg => fdOwns k msg.buf.fd).sum

structure Owned (p : Process) : Prop where
  bad_eq : p.table.bad = false
  nodup : p.table.opened.Nodup
  owners_eq : ∀ k, p.owners k = p.table.opened.count k

structure Started (p : Process) : Prop where
  bufs_fresh : ∀ imsgbuf ∈ p.bufs, imsgbuf.w = msgbufNewReader imsgHeaderSize
  msgs_eq : p.msgs = []
  bad_eq : p.table.bad = false
  opened_eq : p.table.opened = p.owned
  nodup : p.owned.Nodup
  owned_nonneg : ∀ fd ∈ p.owned, 0 ≤ fd

def Call.KeepsFds : Call → Prop
  | .msgbufRead _ _ (.bytes bs control) => bs = [] → receivedFds control = []
  | _ => True

end Ownership
end Libutil
