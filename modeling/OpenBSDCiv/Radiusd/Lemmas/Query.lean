import OpenBSDCiv.Radiusd.Lemmas.Chain

namespace RadiusQuery

open List Machine

section

variable {conf : List Authentication} {s : Radiusd} {p : Nat} {q : Query}

theorem aborted_single (hread : s.query.read p = some q) (hlast : q.hasnext = false) (hprev : q.prev = none)
    : radiusdAccessRequestAborted s p = .ok { s with query := s.query.free p } := by
  unfold radiusdAccessRequestAborted
  have hlt := s.query.lt_of_read hread
  cases hlen : s.query.cells.length with
  | zero => omega
  | succ fuel =>
    unfold abortedFrom
    rw [getQuery_eq hread]
    simp [bind, Except.bind, hlast, hprev, pure, Except.pure]

def dissolve (s : Radiusd) (p : Nat) (q : Query) (k : Nat) (qk : Query) : Radiusd :=
  setQuery (setQuery s p { q with deco := none, prev := none }) k { qk with hasnext := false }

variable {k : Nat} {qk : Query}

theorem read_dissolve (hread : s.query.read p = some q) (hk : s.query.read k = some qk) (hne : p ≠ k) (x : Nat)
    : (dissolve s p q k qk).query.read x
      = if k = x then some { qk with hasnext := false }
        else if p = x then some { q with deco := none, prev := none } else s.query.read x := by
  have hwrite := s.query.read_write hread { q with deco := none, prev := none }
  have hk' : (s.query.write p { q with deco := none, prev := none }).read k = some qk := by
    rw [hwrite, if_neg hne, hk]
  change ((s.query.write p _).write k _).read x = _
  rw [Pool.read_write _ hk', hwrite]

theorem length_dissolve : (dissolve s p q k qk).query.cells.length = s.query.cells.length := by
  simp [dissolve, setQuery]

variable (env : Env)

section

variable (h : Inv conf s) (hread : s.query.read p = some q) (hlast : q.hasnext = false)
include h hread hlast

theorem Inv.nextResponse (hprev : q.prev = some k) (hk : s.query.read k = some qk)
    : ∃ s' s'', radiusdModuleNextResponse env (dissolve s p q k qk) k = .ok s'
      ∧ radiusdAccessRequestAborted s' p = .ok s'' ∧ Inv conf s'' := by
  rcases h.linked.prev p q k hread hprev with ⟨hlt, _⟩
  have hne : p ≠ k := by omega
  have hread' := read_dissolve hread hk hne
  have hself : (dissolve s p q k qk).query.read p = some { q with deco := none, prev := none } := by
    rw [hread', if_neg hne.symm, if_pos rfl]
  unfold radiusdModuleNextResponse
  split
  . refine ⟨_, _, rfl, aborted_single hself hlast rfl, ?_⟩
    apply h.detach hread hlast hprev hk
    . rw [Pool.length_free, length_dissolve]
    intro x
    rw [Pool.read_free _ hself, hread']
    by_cases hx : p = x
    . simp [hx]
    . have hx' : x ≠ p := fun h => hx h.symm
      simp [hx, hx']
  -- the query before is aborted with its request
  rcases h.linked.exists_chain k hk with ⟨l, hl⟩
  have hp : p ∉ l := fun hp => by
    have hle := hl.le_of_mem hp
    omega
  have hl' : Chain (dissolve s p q k qk).query.read k l := by
    apply hl.congr
    intro x qx hx hqx
    rw [hread']
    split
    . next heq =>
      subst heq
      cases hk.symm.trans hqx
      exact ⟨_, rfl, rfl⟩
    . rw [if_neg (by omega)]
      exact ⟨qx, hqx, rfl⟩
  have hkself : (dissolve s p q k qk).query.read k = some { qk with hasnext := false } := by
    rw [hread', if_pos rfl]
  rcases abortedFrom_spec hl' hkself rfl (Inv.chain_length hl' hkself) with ⟨pool, hpool, hlen, hall⟩
  have hself' : pool.read p = some { q with deco := none, prev := none } := by
    rw [hall, if_neg hp, hself]
  refine ⟨_, _, hpool, aborted_single (s := { dissolve s p q k qk with query := pool }) hself' hlast rfl, ?_⟩
  apply h.without (r := q.request)
  . rw [Pool.length_free, hlen, length_dissolve]
  intro x
  rw [← h.linked.remove_chain (.next hread hprev hlt hl) hread hlast x]
  change (pool.free p).read x = _
  rw [Pool.read_free _ hself', hall]
  by_cases hx : p = x
  . simp [hx]
  have hx' : x ≠ p := fun h => hx h.symm
  simp only [hx, hx', if_false, mem_cons, false_or]
  split
  . rfl
  rename_i hmem
  have hkx : k ≠ x := fun heq => hmem (heq ▸ hl.mem_self)
  rw [hread', if_neg hkx, if_neg hx]

theorem Inv.sendResponse (hprev : q.prev = none) {q' last : Query} (hclient : q'.client = q.client)
    (hreq : q'.request = q.request) (hres : q'.res = .linked) (hlastRes : last.res = .linked)
    : ∃ s', sendResponse s p q' last = .ok s' ∧ Inv conf s' := by
  rcases h.linked.root p q hread hprev with ⟨hc, hr⟩
  have hall (x : Nat) : (s.query.free p).read x = RadiusQuery.without s.query.read q.request x := by
    rw [← h.linked.remove_chain (.root hread hprev) hread hlast x, s.query.read_free hread]
    simp [eq_comm]
  have hrest : Inv conf { s with query := s.query.free p } := h.without (s.query.length_free p) hall
  unfold RadiusQuery.sendResponse
  rw [hclient, hc, hlastRes, hres, hreq]
  refine ⟨_, aborted_single (s := { s with sent := s.sent ++ [q.request] }) hread hlast hprev, ?_⟩
  constructor
  . exact hrest.linked
  . intro r hmem
    rcases mem_append.mp hmem with hmem | hmem
    . exact hrest.sent r hmem
    rw [mem_singleton] at hmem
    subst hmem
    refine ⟨?_, ?_⟩
    . rw [Pool.length_free, hr]
      exact s.query.lt_of_read hread
    intro x qx hx
    rw [hall, without_eq_some] at hx
    exact hx.2
  rw [nodup_append]
  refine ⟨h.nodup, nodup_singleton _, ?_⟩
  intro r hmem r' hmem'
  rw [mem_singleton] at hmem'
  subst hmem'
  exact ((h.sent r hmem).2 p q hread).symm

theorem Inv.setDeco (deco : Option Nat)
    : Inv conf (RadiusQuery.setQuery s p { q with deco })
      ∧ (RadiusQuery.setQuery s p { q with deco }).query.read p = some { q with deco } := by
  refine ⟨?_, ?_⟩
  . apply h.setQuery hread { q with deco } rfl id rfl rfl
    . intro hnext
      rw [hlast] at hnext
      contradiction
    . exact h.linked.res p q hread
  . change (s.query.write p _).read p = _
    rw [s.query.read_write hread, if_pos rfl]

theorem Inv.accessRequest : ∃ s', raidusQueryAccessRequest conf env s p = .ok s' ∧ Inv conf s' := by
  unfold raidusQueryAccessRequest
  rw [getQuery_eq hread]
  simp only [bind, Except.bind]
  generalize nextDeco (authenOf conf q).deco (·.reqdeco) q.deco = deco
  rcases h.setDeco hread hlast deco with ⟨hinv, hread'⟩
  have habort := hinv.aborted hread'
  have hsecret := hinv.clientSecret hread'
  split
  . unfold radiusdModuleRequestDecoration
    split
    . exact ⟨_, rfl, hinv.setDecoType _ _ _⟩
    . exact habort
  split
  . unfold radiusdModuleAccessRequest
    split
    . simp only [hsecret, bind, Except.bind]
      split
      . exact ⟨_, rfl, hinv⟩
      . exact habort
    . exact habort
  split
  . unfold radiusdModuleUserpass
    simp only [hsecret, bind, Except.bind]
    split
    . exact ⟨_, rfl, hinv⟩
    . exact habort
  . exact ⟨_, rfl, hinv⟩

theorem Inv.accessResponse (hres : q.res = .linked)
    : ∃ s', radiusQueryAccessResponse conf env s p = .ok s' ∧ Inv conf s' := by
  unfold radiusQueryAccessResponse
  have hlt := s.query.lt_of_read hread
  obtain ⟨fuel, hfuel⟩ : ∃ fuel, s.query.cells.length = fuel + 1 := ⟨s.query.cells.length - 1, by omega⟩
  rw [hfuel, accessResponseFrom, getQuery_eq hread]
  simp only [bind, Except.bind]
  generalize nextDeco (authenOf conf q).deco (·.resdeco) q.deco = deco
  rcases h.setDeco hread hlast deco with ⟨hinv, hread'⟩
  generalize RadiusQuery.setQuery s p { q with deco } = t at hinv hread' ⊢
  have habort := hinv.aborted hread'
  cases deco with
  | some deco =>
    dsimp only
    unfold radiusdModuleResponseDecoration
    rw [hres]
    split
    . exact habort
    rw [if_neg (by decide)]
    split
    . exact habort
    . exact ⟨_, rfl, hinv.setDecoType _ _ _⟩
  | none =>
    dsimp only
    split
    . next k hprev =>
      -- the query before takes the response
      rcases hinv.linked.prev p _ k hread' hprev with ⟨_, qk, hk, hnext, _⟩
      have hnextres := (hinv.linked.filter k qk hk hnext).2
      rcases hinv.nextResponse env hread' hlast hprev hk with ⟨s', s'', hs', hs'', hinv'⟩
      unfold dissolve at hs'
      rw [getQuery_eq hk]
      dsimp only
      rw [if_pos hnextres, getQuery_eq hread']
      dsimp only
      rw [if_neg (by rw [hres]; decide), hs']
      exact ⟨s'', hs'', hinv'⟩
    rename_i hprev
    rw [getQuery_eq hread']
    exact hinv.sendResponse hread' hlast hprev rfl rfl hres hres

end

section

variable (h : Inv conf s)
include h

theorem Inv.insertQuery (q : Query) (hnext : q.hasnext = false) (hres : q.res = .absent)
    (hroot : q.prev = none → q.client = true ∧ q.request = s.query.cells.length)
    (hprev : ∀ k, q.prev = some k → ∃ qk, s.query.read k = some qk ∧ qk.hasnext = true ∧ qk.request = q.request
      ∧ ∀ x qx, s.query.read x = some qx → qx.prev ≠ some k)
    : Inv conf (insertQuery s q) ∧ (insertQuery s q).query.read s.query.cells.length = some q := by
  have hself := s.query.read_insert (fun _ => false) q
  have hold (x : Nat) (qx : Query) (hx : (s.query.insert (fun _ => false) q).read x = some qx)
      : x = s.query.cells.length ∧ qx = q ∨ x < s.query.cells.length ∧ s.query.read x = some qx := by
    by_cases hlen : x = s.query.cells.length
    . subst hlen
      rw [hself] at hx
      exact .inl ⟨rfl, (Option.some.inj hx).symm⟩
    . rw [s.query.read_insert_of_ne _ _ hlen] at hx
      exact .inr ⟨s.query.lt_of_read hx, hx⟩
  have hnew (x : Nat) (qx : Query) (hx : s.query.read x = some qx)
      : (s.query.insert (fun _ => false) q).read x = some qx := by
    rw [s.query.read_insert_of_ne _ _ (Nat.ne_of_lt (s.query.lt_of_read hx)), hx]
  refine ⟨?_, hself⟩
  constructor
  . constructor
    . intro x qx k hx hk
      rcases hold x qx hx with ⟨rfl, rfl⟩ | ⟨hlt, ho⟩
      . rcases hprev k hk with ⟨qk, hqk, hn, hr, _⟩
        exact ⟨s.query.lt_of_read hqk, qk, hnew k qk hqk, hn, hr⟩
      . rcases h.linked.prev x qx k ho hk with ⟨hlt', qk, hqk, hrest⟩
        exact ⟨hlt', qk, hnew k qk hqk, hrest⟩
    . intro x qx y qy k hx hy hkx hky
      rcases hold x qx hx with ⟨rfl, rfl⟩ | ⟨hltx, hox⟩
      . rcases hold y qy hy with ⟨rfl, rfl⟩ | ⟨hlty, hoy⟩
        . rfl
        . rcases hprev k hkx with ⟨_, _, _, _, honly⟩
          exact absurd hky (honly y qy hoy)
      rcases hold y qy hy with ⟨rfl, rfl⟩ | ⟨hlty, hoy⟩
      . rcases hprev k hky with ⟨_, _, _, _, honly⟩
        exact absurd hkx (honly x qx hox)
      . exact h.linked.child x qx y qy k hox hoy hkx hky
    . intro x qx hx hk
      rcases hold x qx hx with ⟨rfl, rfl⟩ | ⟨_, ho⟩
      . exact hroot hk
      . exact h.linked.root x qx ho hk
    . intro x qx hx hn
      rcases hold x qx hx with ⟨rfl, rfl⟩ | ⟨_, ho⟩
      . rw [hnext] at hn
        contradiction
      . exact h.linked.filter x qx ho hn
    intro x qx hx
    rcases hold x qx hx with ⟨rfl, rfl⟩ | ⟨_, ho⟩
    . rw [hres]
      exact Response.noConfusion
    . exact h.linked.res x qx ho
  . intro r hr
    rcases h.sent r hr with ⟨hlt, hother⟩
    refine ⟨?_, ?_⟩
    . change r < (s.query.insert (fun _ => false) q).cells.length
      rw [s.query.length_insert]
      omega
    intro x qx hx
    rcases hold x qx hx with ⟨rfl, rfl⟩ | ⟨_, ho⟩
    . cases hprevq : qx.prev with
      | none =>
        rw [(hroot hprevq).2]
        omega
      | some k =>
        rcases hprev k hprevq with ⟨qk, hqk, _, hreq, _⟩
        rw [← hreq]
        exact hother k qk hqk
    . exact hother x qx ho
  . exact h.nodup

variable (hread : s.query.read p = some q)
include hread

theorem Inv.setRes
    : Inv conf (RadiusQuery.setQuery s p { q with res := .linked })
      ∧ (RadiusQuery.setQuery s p { q with res := .linked }).query.read p = some { q with res := .linked } := by
  refine ⟨?_, ?_⟩
  . apply h.setQuery hread { q with res := .linked } rfl id rfl rfl
    . exact h.linked.filter p q hread
    . exact Response.noConfusion
  . change (s.query.write p _).read p = _
    rw [s.query.read_write hread, if_pos rfl]

theorem Inv.answer (hat : q.AtModule)
    : ∃ s', radiusdAccessRequestAnswer conf env s p = .ok s' ∧ Inv conf s' := by
  have hdeco : q.deco.isSome = false := by
    rw [hat.1]
    rfl
  unfold radiusdAccessRequestAnswer
  rw [getQuery_eq hread]
  simp only [bind, Except.bind, hdeco, Bool.false_eq_true, if_false]
  rcases h.setRes hread with ⟨hinv, hread'⟩
  exact hinv.accessResponse env hread' hat.2 rfl

theorem Inv.nextQuery (hat : q.AtModule) (hnextres : (authenOf conf q).auth.nextres = true) (authen : Nat)
    : Inv conf (RadiusQuery.insertQuery (RadiusQuery.setQuery s p { q with hasnext := true }) (nextQuery s p q authen))
      ∧ (RadiusQuery.insertQuery (RadiusQuery.setQuery s p { q with hasnext := true })
          (nextQuery s p q authen)).query.read s.query.cells.length = some (nextQuery s p q authen) := by
  have hwrite := s.query.read_write hread { q with hasnext := true }
  have hinv : Inv conf (RadiusQuery.setQuery s p { q with hasnext := true }) := by
    apply h.setQuery hread { q with hasnext := true } rfl (fun _ => rfl) rfl rfl
    . exact fun _ => ⟨hat.1, hnextres⟩
    . exact h.linked.res p q hread
  -- no query follows one that does not wait
  have honly (x : Nat) (qx : Query) (hx : s.query.read x = some qx) : qx.prev ≠ some p := by
    intro hprev
    rcases h.linked.prev x qx p hx hprev with ⟨_, q', hq', hnext, _⟩
    cases hread.symm.trans hq'
    rw [hat.2] at hnext
    contradiction
  have hlen : (RadiusQuery.setQuery s p { q with hasnext := true }).query.cells.length = s.query.cells.length :=
    s.query.length_write p _
  rw [← hlen]
  apply hinv.insertQuery (RadiusQuery.nextQuery s p q authen) rfl rfl
  . exact fun h => absurd h (Option.some_ne_none p)
  intro k hk
  cases hk
  refine ⟨{ q with hasnext := true }, ?_, rfl, rfl, ?_⟩
  . change (s.query.write p _).read p = _
    rw [hwrite, if_pos rfl]
  intro x qx hx
  change (s.query.write p _).read x = _ at hx
  rw [hwrite] at hx
  split at hx
  . cases hx
    exact honly p q hread
  . exact honly x qx hx

theorem Inv.next (hat : q.AtModule)
    (hnextres : (authenOf conf q).isfilter = true → (authenOf conf q).auth.nextres = true)
    : ∃ s', radiusdAccessRequestNext conf env s p = .ok s' ∧ Inv conf s' := by
  have hdeco : q.deco.isSome = false := by
    rw [hat.1]
    rfl
  have habort := h.aborted hread
  unfold radiusdAccessRequestNext
  rw [getQuery_eq hread]
  simp only [bind, Except.bind, hdeco, Bool.false_eq_true, if_false]
  split
  . exact habort
  rename_i hfilter
  rw [Bool.not_eq_true, Bool.not_eq_false'] at hfilter
  split
  . exact habort
  rename_i authen _
  split
  . exact habort
  . rcases h.nextQuery hread hat (hnextres hfilter) authen with ⟨hinv, hread'⟩
    exact hinv.accessRequest env hread' rfl

omit h in
theorem setQuery_same : setQuery s p q = s := by
  unfold setQuery
  rw [s.query.write_read hread]

theorem Inv.not_waiting {type : DecoType} (hdeco : decoTypeOf s q = some type)
    : q.hasnext = false := by
  cases hnext : q.hasnext with
  | false => rfl
  | true =>
    unfold decoTypeOf at hdeco
    rw [(h.linked.filter p q hread hnext).1] at hdeco
    contradiction

theorem Inv.moduleMsg (msg : ModuleMsg) (hexpected : Expected conf s q msg)
    : ∃ s', handleModuleMsg conf env s p msg = .ok s' ∧ Inv conf s' := by
  have habort := h.aborted hread
  cases msg with
  | userpass =>
    dsimp only [handleModuleMsg]
    split
    . rcases h.setRes hread with ⟨hinv, hread'⟩
      rw [getQuery_eq hread]
      simp only [bind, Except.bind, hinv.clientSecret hread']
      exact hinv.answer env hread' hexpected
    . exact habort
  | accsreqAnswer pkt =>
    dsimp only [handleModuleMsg]
    split
    . exact h.answer env hread hexpected
    . exact habort
  | accsreqNext pkt =>
    dsimp only [handleModuleMsg]
    split
    . exact h.next env hread hexpected.1 hexpected.2
    . exact habort
  | reqdecoDone pkt =>
    dsimp only [handleModuleMsg]
    rw [getQuery_eq hread]
    simp only [bind, Except.bind]
    split
    . exact ⟨s, rfl, h⟩
    rename_i hdeco
    rw [Decidable.not_not] at hdeco
    have hres := hexpected hdeco
    have hlast := h.not_waiting hread hdeco
    have hsame : (if (pkt && q.res == .linked) = true then Response.dangling else q.res) = q.res := by
      rw [hres]
      simp
    rw [hsame, setQuery_same hread]
    exact h.accessRequest env hread hlast
  | resdecoDone pkt =>
    dsimp only [handleModuleMsg]
    rw [getQuery_eq hread]
    simp only [bind, Except.bind]
    split
    . exact ⟨s, rfl, h⟩
    rename_i hdeco
    rw [Decidable.not_not] at hdeco
    have hres := hexpected hdeco
    have hlast := h.not_waiting hread hdeco
    split
    . rw [if_neg (by rw [hres]; decide)]
      rcases h.setRes hread with ⟨hinv, hread'⟩
      exact hinv.accessResponse env hread' hlast rfl
    . exact h.accessResponse env hread hlast hres
  | unconverted | accsreqAborted => exact habort

end

theorem Inv.accessRequestFirst (h : Inv conf s)
    : ∃ s', handleAccessRequest conf env s = .ok s' ∧ Inv conf s' := by
  unfold handleAccessRequest
  generalize firstFrom conf.length 0 env.fits = authen
  have hins := h.insertQuery (firstQuery s (authen.getD 0)) rfl rfl (fun _ => ⟨rfl, rfl⟩)
    (fun k hk => absurd hk.symm (Option.some_ne_none k))
  cases authen with
  | none => exact hins.1.aborted hins.2
  | some authen =>
    dsimp only
    split
    . exact hins.1.aborted hins.2
    . exact hins.1.accessRequest env hins.2 rfl

end

section

variable {conf : List Authentication}

theorem Inv.step {s : Radiusd} (h : Inv conf s) (event : Event) (hok : EventOk conf s event)
    : ∃ s', queryStep conf s event = some s' ∧ Inv conf s' := by
  have hevent : ∃ s', radiusdEvent conf s event = .ok s' ∧ Inv conf s' := by
    cases event with
    | accessRequest env => exact h.accessRequestFirst env
    | moduleMsg id msg env =>
      dsimp only [radiusdEvent]
      cases hfind : radiusdFindQuery s id with
      | none => exact ⟨s, rfl, h⟩
      | some p =>
        rcases s.query.find_some hfind with ⟨_, q, hread, _⟩
        apply h.moduleMsg env hread msg
        apply hok
        rw [hfind]
        exact hread
  rcases hevent with ⟨s', hs', hinv⟩
  refine ⟨s', ?_, hinv⟩
  unfold queryStep
  rw [hs']
  rfl

theorem Inv.init : Inv conf init := by
  constructor
  . constructor <;> simp [RadiusQuery.init, Pool.read, Pool.empty]
  . simp [RadiusQuery.init]
  . exact nodup_nil

theorem Inv.answered {s : Radiusd} (h : Inv conf s) : Answered s := by
  constructor
  . exact h.nodup
  . intro r hr
    exact (h.sent r hr).2
  intro p q hread
  rcases h.linked.exists_chain p hread with ⟨l, hl⟩
  rcases h.linked.chain_request hl hread with ⟨hmem, hall⟩
  rcases hall _ hmem with ⟨qr, hqr, _⟩
  rw [hqr]
  rfl

end

theorem radiusd_answered (conf : List Authentication) (events : List Event)
    (hmeets : RunMeets (queryStep conf) (EventOk conf) init events)
    : ∃ s, run (queryStep conf) init events = some s ∧ Answered s := by
  have hstep (s : Radiusd) (event : Event) (h : Inv conf s) (hok : EventOk conf s event) := h.step event hok
  rcases run_progress hstep hmeets Inv.init with ⟨s, hrun, hinv⟩
  exact ⟨s, hrun, hinv.answered⟩

def sampleConf : List Authentication :=
  [{ auth := { accsreq := true, nextres := true }, isfilter := true
     deco := [{ reqdeco := true, resdeco := true }] },
   { auth := { userpass := true } }]

def sampleEvents : List Event :=
  [.accessRequest {}, .moduleMsg 1 (.reqdecoDone true) {}, .moduleMsg 1 (.accsreqNext true) {},
   .moduleMsg 2 .userpass {}, .moduleMsg 1 (.accsreqAnswer true) {}, .moduleMsg 1 (.resdecoDone false) {}]

theorem sampleEvents_answered
    : ∃ s, run (queryStep sampleConf) init sampleEvents = some s ∧ Answered s :=
  radiusd_answered sampleConf sampleEvents (by decide +kernel)

def plainFilterConf : List Authentication :=
  [{ auth := { accsreq := true }, isfilter := true }, { auth := { userpass := true } }]

theorem radiusd_not_answered
    : ¬∀ (conf : List Authentication) (events : List Event),
        ∃ s, run (queryStep conf) init events = some s ∧ Answered s := by
  intro h
  rcases h plainFilterConf
    [.accessRequest {}, .moduleMsg 1 (.accsreqNext true) {}, .moduleMsg 2 .userpass {}] with ⟨s, hrun, _⟩
  have hnone : run (queryStep plainFilterConf) init
      [.accessRequest {}, .moduleMsg 1 (.accsreqNext true) {}, .moduleMsg 2 .userpass {}] = none := by
    decide +kernel
  contradiction

-- an answer before the decorator is done
example
    : run (queryStep sampleConf) init [.accessRequest {}, .moduleMsg 1 (.accsreqAnswer true) {}] = none := by
  decide +kernel

-- a filter that answers while it waits for the next authentication, and again after it
example
    : (run (queryStep [{ auth := { accsreq := true, nextres := true }, isfilter := true },
          { auth := { userpass := true } }]) init
        [.accessRequest {}, .moduleMsg 1 (.accsreqNext true) {}, .moduleMsg 1 (.accsreqAnswer true) {},
          .moduleMsg 2 .userpass {}, .moduleMsg 1 (.accsreqAnswer true) {}]).map (·.sent) = some [0, 0] := by
  decide +kernel

end RadiusQuery
