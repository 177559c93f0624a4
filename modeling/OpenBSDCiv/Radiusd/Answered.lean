import OpenBSDCiv.Lib.Machine
import OpenBSDCiv.Radiusd.Impl.Query

/-!
What it is that a request is answered at most once and forgotten, and which messages of the modules
are expected.
-/

namespace RadiusQuery

structure Answered (s : Radiusd) : Prop where
  once : s.sent.Nodup
  forgotten : ∀ r ∈ s.sent, ∀ p q, s.query.read p = some q → q.request ≠ r
  whole : ∀ p q, s.query.read p = some q → (s.query.read q.request).isSome

def Query.AtModule (q : Query) : Prop :=
  q.deco = none ∧ q.hasnext = false

instance (q : Query) : Decidable q.AtModule :=
  inferInstanceAs (Decidable (_ ∧ _))

variable (conf : List Authentication)

def Expected (s : Radiusd) (q : Query) : ModuleMsg → Prop
  | .userpass => q.AtModule
  | .accsreqAnswer _ => q.AtModule
  | .accsreqNext _ =>
    q.AtModule ∧ ((authenOf conf q).isfilter = true → (authenOf conf q).auth.nextres = true)
  | .reqdecoDone _ => decoTypeOf s q = some .reqdeco → q.res = .absent
  | .resdecoDone _ => decoTypeOf s q = some .resdeco → q.res = .linked
  | .unconverted => True
  | .accsreqAborted => True

instance (s : Radiusd) (q : Query) (msg : ModuleMsg) : Decidable (Expected conf s q msg) := by
  cases msg <;> unfold Expected <;> infer_instance

def EventOk (s : Radiusd) : Event → Prop
  | .accessRequest _ => True
  | .moduleMsg id msg _ => ∀ q ∈ (radiusdFindQuery s id).bind s.query.read, Expected conf s q msg

instance (s : Radiusd) (event : Event) : Decidable (EventOk conf s event) := by
  cases event <;> unfold EventOk <;> infer_instance

end RadiusQuery
