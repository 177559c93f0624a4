import OpenBSDCiv.Radiusd.Answered

namespace RadiusQuery

open List

theorem getQuery_eq {s : Radiusd} {p : Nat} {q : Query} (h : s.query.read p = some q)
    : getQuery s p = .ok q := by
  unfold getQuery
  rw [h]

inductive Chain (read : Nat → Option Query) : Nat → List Nat → Prop
  | root {p : Nat} {q : Query} (hread : read p = some q) (hprev : q.prev = none) : Chain read p [p]
  | next {p k : Nat} {q : Query} {l : List Nat} (hread : read p = some q) (hprev : q.prev = some k) (hlt : k < p)
    (hchain : Chain read k l) : Chain read p (p :: l)

namespace Chain

variable {read read' : Nat → Option Query} {p : Nat} {l : List Nat}

section

variable (h : Chain read p l)
include h

theorem le_of_mem {x : Nat} (hx : x ∈ l) : x ≤ p := by
  induction h with
  | root => exact Nat.le_of_eq (mem_singleton.mp hx)
  | next _ _ hlt _ ih =>
    rcases mem_cons.mp hx with rfl | hx
    . exact Nat.le_refl _
    . have hle := ih hx
      omega

theorem length_le : l.length ≤ p + 1 := by
  induction h with
  | root => simp
  | next _ _ hlt _ ih =>
    rw [length_cons]
    omega

theorem mem_self : p ∈ l := by
  cases h with
  | root => exact mem_singleton_self p
  | next => exact mem_cons_self

theorem congr (hlinks : ∀ x q, x ≤ p → read x = some q → ∃ q', read' x = some q' ∧ q'.prev = q.prev)
    : Chain read' p l := by
  induction h with
  | root hread hprev =>
    rcases hlinks _ _ (Nat.le_refl _) hread with ⟨q', hread', heq⟩
    exact .root hread' (heq.trans hprev)
  | next hread hprev hlt _ ih =>
    rcases hlinks _ _ (Nat.le_refl _) hread with ⟨q', hread', heq⟩
    apply Chain.next hread' (heq.trans hprev) hlt
    apply ih
    intro x q hx
    exact hlinks x q (by omega)

end

end Chain

variable {fuel p : Nat} {s : Radiusd} {l : List Nat}

theorem abortedFrom_spec {q : Query} (hchain : Chain s.query.read p l) (hread : s.query.read p = some q)
    (hlast : q.hasnext = false) (hfuel : l.length ≤ fuel)
    : ∃ pool : Pool Query, abortedFrom fuel s p = .ok { s with query := pool }
      ∧ pool.cells.length = s.query.cells.length
      ∧ ∀ x, pool.read x = if x ∈ l then none else s.query.read x := by
  induction fuel generalizing s p q l with
  | zero =>
    have hmem := length_pos_of_mem hchain.mem_self
    omega
  | succ fuel ih =>
    unfold abortedFrom
    rw [getQuery_eq hread]
    simp only [bind, Except.bind, hlast, Bool.false_eq_true, if_false]
    cases hchain with
    | root hread' hprev =>
      cases hread.symm.trans hread'
      rw [hprev]
      refine ⟨s.query.free p, rfl, s.query.length_free p, ?_⟩
      intro x
      rw [s.query.read_free hread]
      simp [eq_comm]
    | @next _ k _ l hread' hprev hlt hchain =>
      cases hread.symm.trans hread'
      have hk : ∃ qk, s.query.read k = some qk := by
        cases hchain with
        | root h | next h => exact ⟨_, h⟩
      rcases hk with ⟨qk, hk⟩
      have hwrite := s.query.read_write hk { qk with hasnext := false }
      have hchain' : Chain (s.query.write k { qk with hasnext := false }).read k l := by
        apply hchain.congr
        intro x q hx hq
        rw [hwrite]
        split
        . next heq =>
          subst heq
          cases hk.symm.trans hq
          exact ⟨_, rfl, rfl⟩
        . exact ⟨q, hq, rfl⟩
      rcases ih (s := setQuery s k { qk with hasnext := false }) hchain' (by
          change (s.query.write k _).read k = _
          rw [hwrite, if_pos rfl]) rfl (by simpa using hfuel) with ⟨pool, hpool, hlen, hall⟩
      rw [hprev]
      simp only [getQuery_eq hk, hpool, pure, Except.pure]
      have hp : p ∉ l := fun hp => by
        have hle := hchain.le_of_mem hp
        omega
      have hall (x : Nat) : pool.read x = if x ∈ l then none else s.query.read x := by
        rw [hall x]
        change (if x ∈ l then none else (s.query.write k _).read x) = _
        rw [hwrite]
        split
        . rfl
        rename_i hx
        rw [if_neg]
        intro heq
        subst heq
        exact hx hchain.mem_self
      have hfree := pool.read_free (p := p) (x := q) (by rw [hall, if_neg hp, hread])
      refine ⟨pool.free p, rfl, ?_, ?_⟩
      . rw [pool.length_free, hlen]
        exact s.query.length_write k _
      intro x
      rw [hfree, hall]
      by_cases hx : p = x
      . simp [hx]
      . have hx' : x ≠ p := fun h => hx h.symm
        simp [hx, hx']

theorem clientSecretFrom_ok (hchain : Chain s.query.read p l)
    (hclient : ∀ x q, s.query.read x = some q → q.prev = none → q.client = true) (hfuel : l.length ≤ fuel)
    : clientSecretFrom fuel s p = .ok () := by
  induction fuel generalizing p l with
  | zero =>
    have hmem := length_pos_of_mem hchain.mem_self
    omega
  | succ fuel ih =>
    unfold clientSecretFrom
    cases hchain with
    | root hread hprev =>
      rw [getQuery_eq hread]
      simp [bind, Except.bind, hclient p _ hread hprev, pure, Except.pure]
    | next hread hprev hlt hchain =>
      rw [getQuery_eq hread]
      simp only [bind, Except.bind, hprev]
      split
      . rfl
      . exact ih hchain (by simpa using hfuel)

structure Linked (conf : List Authentication) (read : Nat → Option Query) : Prop where
  prev : ∀ p q k, read p = some q → q.prev = some k →
    k < p ∧ ∃ qk, read k = some qk ∧ qk.hasnext = true ∧ qk.request = q.request
  child : ∀ p q p' q' k, read p = some q → read p' = some q' → q.prev = some k → q'.prev = some k → p = p'
  root : ∀ p q, read p = some q → q.prev = none → q.client = true ∧ q.request = p
  filter : ∀ p q, read p = some q → q.hasnext = true → q.deco = none ∧ (authenOf conf q).auth.nextres = true
  res : ∀ p q, read p = some q → q.res ≠ .dangling

namespace Linked

variable {conf : List Authentication} {read : Nat → Option Query}

variable {q : Query} {p : Nat} {l : List Nat}

theorem exists_chain (h : Linked conf read) (p : Nat) (hread : read p = some q) : ∃ l, Chain read p l := by
  induction p using Nat.strongRecOn generalizing q with
  | _ p ih =>
    cases hprev : q.prev with
    | none => exact ⟨_, .root hread hprev⟩
    | some k =>
      rcases h.prev p q k hread hprev with ⟨hlt, qk, hk, _⟩
      rcases ih k hlt hk with ⟨l, hl⟩
      exact ⟨_, .next hread hprev hlt hl⟩

theorem chain_request (h : Linked conf read) (hchain : Chain read p l) (hread : read p = some q)
    : q.request ∈ l ∧ ∀ x ∈ l, ∃ qx, read x = some qx ∧ qx.request = q.request := by
  induction hchain generalizing q with
  | root hread' hprev =>
    cases hread.symm.trans hread'
    have hroot := (h.root _ _ hread hprev).2
    rw [hroot]
    refine ⟨mem_singleton_self _, ?_⟩
    intro x hx
    rw [mem_singleton] at hx
    subst hx
    exact ⟨_, hread, hroot⟩
  | next hread' hprev hlt hchain ih =>
    cases hread.symm.trans hread'
    rcases h.prev _ _ _ hread hprev with ⟨_, qk, hk, _, hreq⟩
    have ih := ih hk
    rw [hreq] at ih
    refine ⟨mem_cons_of_mem _ ih.1, ?_⟩
    intro x hx
    rcases mem_cons.mp hx with rfl | hx
    . exact ⟨_, hread, rfl⟩
    . exact ih.2 x hx

theorem chain_follows {k : Nat} (hchain : Chain read p l) (hk : k ∈ l)
    : k = p ∨ ∃ y ∈ l, ∃ q, read y = some q ∧ q.prev = some k := by
  induction hchain with
  | root =>
    left
    exact mem_singleton.mp hk
  | next hread hprev hlt hchain ih =>
    rcases mem_cons.mp hk with rfl | hk
    . left
      rfl
    right
    rcases ih hk with rfl | ⟨y, hy, q, hq⟩
    . exact ⟨_, mem_cons_self, _, hread, hprev⟩
    . exact ⟨y, mem_cons_of_mem _ hy, q, hq⟩

theorem mem_chain (h : Linked conf read) (hchain : Chain read p l) (hread : read p = some q)
    (hlast : q.hasnext = false) (x : Nat) {qx : Query} (hx : read x = some qx) (hreq : qx.request = q.request)
    : x ∈ l := by
  induction x using Nat.strongRecOn generalizing qx with
  | _ x ih =>
    cases hprev : qx.prev with
    | none =>
      rw [← (h.root x qx hx hprev).2, hreq]
      exact (h.chain_request hchain hread).1
    | some k =>
      rcases h.prev x qx k hx hprev with ⟨hlt, qk, hk, hnext, hreqk⟩
      have hmem := ih k hlt hk (hreqk.trans hreq)
      rcases chain_follows hchain hmem with rfl | ⟨y, hy, qy, hqy, hprevy⟩
      . -- the query would wait for another one
        cases hread.symm.trans hk
        rw [hlast] at hnext
        contradiction
      . rw [h.child x qx y qy k hx hqy hprev hprevy]
        exact hy

end Linked

def without (read : Nat → Option Query) (r : Nat) (x : Nat) : Option Query :=
  (read x).filter fun q => decide (q.request ≠ r)

variable {read : Nat → Option Query} {q : Query} {conf : List Authentication}

theorem without_eq_some {r x : Nat} : without read r x = some q ↔ read x = some q ∧ q.request ≠ r := by
  unfold without
  rw [Option.filter_eq_some_iff, decide_eq_true_eq]

theorem Linked.remove_chain (h : Linked conf read) {p : Nat} {l : List Nat} (hchain : Chain read p l)
    (hread : read p = some q) (hlast : q.hasnext = false) (x : Nat)
    : (if x ∈ l then none else read x) = RadiusQuery.without read q.request x := by
  unfold RadiusQuery.without
  split
  . next hx =>
    rcases (h.chain_request hchain hread).2 x hx with ⟨qx, hqx, hreq⟩
    rw [hqx]
    simp [Option.filter, hreq]
  rename_i hx
  cases hqx : read x with
  | none => rfl
  | some qx =>
    have hreq : qx.request ≠ q.request := fun hreq => hx (h.mem_chain hchain hread hlast x hqx hreq)
    simp [Option.filter, hreq]

structure Inv (conf : List Authentication) (s : Radiusd) : Prop where
  linked : Linked conf s.query.read
  sent : ∀ r ∈ s.sent, r < s.query.cells.length ∧ ∀ p q, s.query.read p = some q → q.request ≠ r
  nodup : s.sent.Nodup

namespace Inv

variable {conf : List Authentication} {s : Radiusd} {p : Nat} {q : Query}

theorem chain_length {l : List Nat} (hchain : Chain s.query.read p l) (hread : s.query.read p = some q)
    : l.length ≤ s.query.cells.length := by
  have hlen := hchain.length_le
  have hlt := s.query.lt_of_read hread
  omega

/-- A change of the queries that keeps the links between them. -/
theorem of_links {pool : Pool Query} (h : Inv conf s) (hlen : pool.cells.length = s.query.cells.length)
    (hold : ∀ x qx, pool.read x = some qx →
      ∃ qo, s.query.read x = some qo ∧ qx.prev = qo.prev ∧ qx.client = qo.client ∧ qx.request = qo.request)
    (hprev : ∀ x qx k qk, pool.read x = some qx → qx.prev = some k → s.query.read k = some qk → qk.hasnext = true →
      qk.request = qx.request → ∃ qk', pool.read k = some qk' ∧ qk'.hasnext = true ∧ qk'.request = qk.request)
    (hfilter : ∀ x qx, pool.read x = some qx → qx.hasnext = true →
      qx.deco = none ∧ (authenOf conf qx).auth.nextres = true)
    (hres : ∀ x qx, pool.read x = some qx → qx.res ≠ .dangling)
    : Inv conf { s with query := pool } := by
  constructor
  . constructor
    . intro x qx k hx hk
      rcases hold x qx hx with ⟨qo, ho, hp, _, hr⟩
      rcases h.linked.prev x qo k ho (hp ▸ hk) with ⟨hlt, qk, hqk, hn, hrk⟩
      rcases hprev x qx k qk hx hk hqk hn (hrk.trans hr.symm) with ⟨qk', hqk', hn', hr'⟩
      exact ⟨hlt, qk', hqk', hn', by rw [hr', hrk, hr]⟩
    . intro x qx y qy k hx hy hkx hky
      rcases hold x qx hx with ⟨qo, ho, hp, _⟩
      rcases hold y qy hy with ⟨qo', ho', hp', _⟩
      exact h.linked.child x qo y qo' k ho ho' (hp ▸ hkx) (hp' ▸ hky)
    . intro x qx hx hk
      rcases hold x qx hx with ⟨qo, ho, hp, hc, hr⟩
      rw [hc, hr]
      exact h.linked.root x qo ho (hp ▸ hk)
    . exact hfilter
    . exact hres
  . intro r hr
    refine ⟨?_, ?_⟩
    . dsimp only
      rw [hlen]
      exact (h.sent r hr).1
    intro x qx hx
    rcases hold x qx hx with ⟨qo, ho, _, _, hreq⟩
    rw [hreq]
    exact (h.sent r hr).2 x qo ho
  . exact h.nodup

theorem without {pool : Pool Query} {r : Nat} (h : Inv conf s) (hlen : pool.cells.length = s.query.cells.length)
    (hall : ∀ x, pool.read x = without s.query.read r x)
    : Inv conf { s with query := pool } := by
  have hsome {x : Nat} {qx : Query} (hx : pool.read x = some qx) : s.query.read x = some qx ∧ qx.request ≠ r := by
    rw [hall, without_eq_some] at hx
    exact hx
  apply h.of_links hlen
  . intro x qx hx
    exact ⟨qx, (hsome hx).1, rfl, rfl, rfl⟩
  . intro x qx k qk hx _ hqk hn hreq
    refine ⟨qk, ?_, hn, rfl⟩
    rw [hall, without_eq_some, hreq]
    exact ⟨hqk, (hsome hx).2⟩
  . intro x qx hx
    exact h.linked.filter x qx (hsome hx).1
  . intro x qx hx
    exact h.linked.res x qx (hsome hx).1

theorem aborted_last (h : Inv conf s) (hread : s.query.read p = some q) (hlast : q.hasnext = false)
    : ∃ pool : Pool Query, radiusdAccessRequestAborted s p = .ok { s with query := pool }
      ∧ pool.cells.length = s.query.cells.length
      ∧ ∀ x, pool.read x = RadiusQuery.without s.query.read q.request x := by
  rcases h.linked.exists_chain p hread with ⟨l, hl⟩
  rcases abortedFrom_spec hl hread hlast (chain_length hl hread) with ⟨pool, hpool, hlen, hall⟩
  refine ⟨pool, hpool, hlen, ?_⟩
  intro x
  rw [hall]
  exact h.linked.remove_chain hl hread hlast x

theorem aborted_waiting (hread : s.query.read p = some q) (hnext : q.hasnext = true)
    : radiusdAccessRequestAborted s p = .ok s := by
  unfold radiusdAccessRequestAborted
  cases hlen : s.query.cells.length with
  | zero => rfl
  | succ fuel =>
    unfold abortedFrom
    rw [getQuery_eq hread]
    simp [bind, Except.bind, hnext, pure, Except.pure]

section

variable (h : Inv conf s) (hread : s.query.read p = some q)
include h hread

theorem aborted : ∃ s', radiusdAccessRequestAborted s p = .ok s' ∧ Inv conf s' := by
  cases hnext : q.hasnext with
  | true => exact ⟨s, aborted_waiting hread hnext, h⟩
  | false =>
    rcases h.aborted_last hread hnext with ⟨pool, hpool, hlen, hall⟩
    exact ⟨_, hpool, h.without hlen hall⟩

theorem clientSecret : radiusQueryClientSecret s p = .ok () := by
  rcases h.linked.exists_chain p hread with ⟨l, hl⟩
  apply clientSecretFrom_ok hl
  . intro x q hread hprev
    exact (h.linked.root x q hread hprev).1
  . exact chain_length hl hread

theorem setQuery (q' : Query) (hprev : q'.prev = q.prev) (hnext : q.hasnext = true → q'.hasnext = true)
    (hclient : q'.client = q.client) (hreq : q'.request = q.request)
    (hfilter : q'.hasnext = true → q'.deco = none ∧ (authenOf conf q').auth.nextres = true) (hres : q'.res ≠ .dangling)
    : Inv conf (setQuery s p q') := by
  have hwrite := s.query.read_write hread q'
  refine h.of_links (s.query.length_write p q') ?_ ?_ ?_ ?_
  . intro x qx hx
    rw [hwrite] at hx
    split at hx
    . next heq =>
      subst heq
      cases hx
      exact ⟨q, hread, hprev, hclient, hreq⟩
    . exact ⟨qx, hx, rfl, rfl, rfl⟩
  . intro x qx k qk _ _ hqk hn _
    rw [hwrite]
    split
    . next heq =>
      subst heq
      cases hread.symm.trans hqk
      exact ⟨q', rfl, hnext hn, hreq⟩
    . exact ⟨qk, hqk, hn, rfl⟩
  . intro x qx hx
    rw [hwrite] at hx
    split at hx
    . cases hx
      exact hfilter
    . exact h.linked.filter x qx hx
  . intro x qx hx
    rw [hwrite] at hx
    split at hx
    . cases hx
      exact hres
    . exact h.linked.res x qx hx

end

theorem setDecoType (h : Inv conf s) (authen deco : Nat) (type : DecoType)
    : Inv conf (setDecoType s authen deco type) :=
  ⟨h.linked, h.sent, h.nodup⟩

theorem detach {pool : Pool Query} {k : Nat} {qk : Query} (h : Inv conf s) (hread : s.query.read p = some q)
    (hlast : q.hasnext = false) (hprev : q.prev = some k) (hk : s.query.read k = some qk)
    (hlen : pool.cells.length = s.query.cells.length)
    (hall : ∀ x, pool.read x = if x = p then none
      else if k = x then some { qk with hasnext := false } else s.query.read x)
    : Inv conf { s with query := pool } := by
  have hcases (x : Nat) (qx : Query) (hx : pool.read x = some qx)
      : x ≠ p ∧ (x = k ∧ qx = { qk with hasnext := false } ∨ s.query.read x = some qx) := by
    rw [hall] at hx
    split at hx
    . contradiction
    rename_i hne
    refine ⟨hne, ?_⟩
    split at hx
    . next heq =>
      cases hx
      exact .inl ⟨heq.symm, rfl⟩
    . exact .inr hx
  have hold (x : Nat) (qx : Query) (hx : pool.read x = some qx)
      : ∃ qo, s.query.read x = some qo ∧ qx.prev = qo.prev ∧ qx.client = qo.client ∧ qx.request = qo.request := by
    rcases (hcases x qx hx).2 with ⟨rfl, rfl⟩ | ho
    . exact ⟨qk, hk, rfl, rfl, rfl⟩
    . exact ⟨qx, ho, rfl, rfl, rfl⟩
  apply h.of_links hlen hold
  . intro x qx k' qk' hx hk' hqk' hnext _
    refine ⟨qk', ?_, hnext, rfl⟩
    have hkp : k' ≠ p := by
      intro heq
      subst heq
      cases hread.symm.trans hqk'
      rw [hlast] at hnext
      contradiction
    have hkk : k ≠ k' := by
      intro heq
      subst heq
      rcases hold x qx hx with ⟨qo, ho, hpo, _⟩
      exact (hcases x qx hx).1 (h.linked.child x qo p q k ho hread (hpo ▸ hk') hprev)
    rw [hall, if_neg hkp, if_neg hkk, hqk']
  . intro x qx hx hnext
    rcases (hcases x qx hx).2 with ⟨_, rfl⟩ | ho
    . contradiction
    . exact h.linked.filter x qx ho hnext
  . intro x qx hx
    rcases (hcases x qx hx).2 with ⟨_, rfl⟩ | ho
    . exact h.linked.res k qk hk
    . exact h.linked.res x qx ho

end Inv

end RadiusQuery
