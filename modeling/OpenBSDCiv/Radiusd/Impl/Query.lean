import OpenBSDCiv.Lib.Pool

namespace RadiusQuery

structure Module where
  userpass : Bool := false
  accsreq : Bool := false
  reqdeco : Bool := false
  resdeco : Bool := false
  nextres : Bool := false

structure Authentication where
  auth : Module
  isfilter : Bool := false
  deco : List Module := []

inductive DecoType where
  | reqdeco
  | resdeco
  deriving DecidableEq

inductive Response where
  | absent
  | linked
  | dangling
  deriving DecidableEq

structure Query where
  id : UInt32
  authen : Nat
  client : Bool
  res : Response
  deco : Option Nat
  prev : Option Nat
  hasnext : Bool
  request : Nat
  deriving DecidableEq

inductive Fault where
  | assertion
  | packet
  | query
  | client
  deriving DecidableEq

structure Radiusd where
  query : Pool Query
  idSeq : UInt32
  decoType : Nat → Nat → Option DecoType
  sent : List Nat

structure Env where
  alloc : Bool := true
  userName : Bool := true
  fits : Nat → Bool := fun _ => true
  composed : Bool := true
  composedRes : Bool := true

def getQuery (s : Radiusd) (p : Nat) : Except Fault Query :=
  match s.query.read p with
  | some q => .ok q
  | none => .error .query

def setQuery (s : Radiusd) (p : Nat) (q : Query) : Radiusd :=
  { s with query := s.query.write p q }

def abortedFrom : Nat → Radiusd → Nat → Except Fault Radiusd
  | 0, s, _ => .ok s
  | fuel + 1, s, p => do
    let q ← getQuery s p
    if q.hasnext then
      return s
    let s ← match q.prev with
      | none => pure s
      | some prev => do
        let qPrev ← getQuery s prev
        abortedFrom fuel (setQuery s prev { qPrev with hasnext := false }) prev
    return { s with query := s.query.free p }

def radiusdAccessRequestAborted (s : Radiusd) (p : Nat) : Except Fault Radiusd :=
  abortedFrom s.query.cells.length s p

def clientSecretFrom : Nat → Radiusd → Nat → Except Fault Unit
  | 0, _, _ => .error .assertion
  | fuel + 1, s, p => do
    let q ← getQuery s p
    if q.client then
      return ()
    match q.prev with
    | none => .error .assertion
    | some prev => clientSecretFrom fuel s prev

def radiusQueryClientSecret (s : Radiusd) (p : Nat) : Except Fault Unit :=
  clientSecretFrom s.query.cells.length s p

def firstFrom (n start : Nat) (found : Nat → Bool) : Option Nat :=
  (List.range n).find? fun i => decide (start ≤ i) && found i

def nextDeco (deco : List Module) (takesPart : Module → Bool) (cursor : Option Nat) : Option Nat :=
  firstFrom deco.length (match cursor with | none => 0 | some i => i + 1) fun i => deco[i]?.any takesPart

def setDecoType (s : Radiusd) (authen deco : Nat) (type : DecoType) : Radiusd :=
  { s with decoType := fun a d => if a = authen ∧ d = deco then some type else s.decoType a d }

section

variable (conf : List Authentication) (env : Env)

def authenOf (q : Query) : Authentication :=
  conf.getD q.authen { auth := {} }

def radiusdModuleRequestDecoration (s : Radiusd) (p : Nat) (q : Query) (deco : Nat) : Except Fault Radiusd :=
  if env.composed then .ok (setDecoType s q.authen deco .reqdeco) else radiusdAccessRequestAborted s p

def radiusdModuleAccessRequest (s : Radiusd) (p : Nat) : Except Fault Radiusd :=
  if env.alloc then do
    radiusQueryClientSecret s p
    if env.composed then .ok s else radiusdAccessRequestAborted s p
  else
    radiusdAccessRequestAborted s p

def radiusdModuleUserpass (s : Radiusd) (p : Nat) : Except Fault Radiusd := do
  radiusQueryClientSecret s p
  if env.userName then .ok s else radiusdAccessRequestAborted s p

def raidusQueryAccessRequest (s : Radiusd) (p : Nat) : Except Fault Radiusd := do
  let q ← getQuery s p
  let deco := nextDeco (authenOf conf q).deco (·.reqdeco) q.deco
  let s := setQuery s p { q with deco }
  match deco with
  | some deco => radiusdModuleRequestDecoration env s p q deco
  | none =>
    if (authenOf conf q).auth.accsreq then
      radiusdModuleAccessRequest env s p
    else if (authenOf conf q).auth.userpass then
      radiusdModuleUserpass env s p
    else
      .ok s

def radiusdModuleResponseDecoration (s : Radiusd) (p : Nat) (q : Query) (deco : Nat) : Except Fault Radiusd :=
  if !env.composed then
    radiusdAccessRequestAborted s p
  else if q.res = .absent then
    .error .packet
  else if !env.composedRes then
    radiusdAccessRequestAborted s p
  else
    .ok (setDecoType s q.authen deco .resdeco)

def radiusdModuleNextResponse (s : Radiusd) (p : Nat) : Except Fault Radiusd :=
  if env.composed then .ok s else radiusdAccessRequestAborted s p

def sendResponse (s : Radiusd) (p : Nat) (q last : Query) : Except Fault Radiusd :=
  if !q.client then
    .error .client
  else if last.res = .absent then
    .error .packet
  else if q.res ≠ .linked then
    -- the Message-Authenticator is calculated with the request packet
    .error .packet
  else
    radiusdAccessRequestAborted { s with sent := s.sent ++ [q.request] } p

def accessResponseFrom (pLast : Nat) : Nat → Radiusd → Nat → Except Fault Radiusd
  | 0, s, _ => .ok s
  | fuel + 1, s, p => do
    let q ← getQuery s p
    let deco := nextDeco (authenOf conf q).deco (·.resdeco) q.deco
    let s := setQuery s p { q with deco }
    match deco with
    | some deco => radiusdModuleResponseDecoration env s p q deco
    | none =>
      match q.prev with
      | some prev =>
        let qPrev ← getQuery s prev
        if (authenOf conf qPrev).auth.nextres then
          let last ← getQuery s pLast
          if last.res = .absent then
            .error .packet
          else
            -- dissolve the relation
            let s := setQuery s p { q with deco, prev := none }
            let s := setQuery s prev { qPrev with hasnext := false }
            let s ← radiusdModuleNextResponse env s prev
            radiusdAccessRequestAborted s p
        else
          accessResponseFrom pLast fuel s prev
      | none =>
        let last ← getQuery s pLast
        sendResponse s p q last

def radiusQueryAccessResponse (s : Radiusd) (p : Nat) : Except Fault Radiusd :=
  accessResponseFrom conf env p s.query.cells.length s p

def radiusdAccessRequestAnswer (s : Radiusd) (p : Nat) : Except Fault Radiusd := do
  let q ← getQuery s p
  let s := setQuery s p { q with res := .linked }
  if q.deco.isSome then .error .assertion else radiusQueryAccessResponse conf env s p

def insertQuery (s : Radiusd) (q : Query) : Radiusd :=
  { s with query := s.query.insert (fun _ => false) q, idSeq := s.idSeq + 1 }

def nextQuery (s : Radiusd) (p : Nat) (q : Query) (authen : Nat) : Query where
  id := s.idSeq + 1
  authen := authen
  client := false
  res := .absent
  deco := none
  prev := some p
  hasnext := false
  request := q.request

def radiusdAccessRequestNext (s : Radiusd) (p : Nat) : Except Fault Radiusd := do
  let q ← getQuery s p
  if q.deco.isSome then
    .error .assertion
  else if !(authenOf conf q).isfilter then
    radiusdAccessRequestAborted s p
  else
    match firstFrom conf.length (q.authen + 1) env.fits with
    | none => radiusdAccessRequestAborted s p
    | some authen =>
      if !env.alloc then
        radiusdAccessRequestAborted s p
      else
        let s' := insertQuery (setQuery s p { q with hasnext := true }) (nextQuery s p q authen)
        raidusQueryAccessRequest conf env s' s.query.cells.length

def firstQuery (s : Radiusd) (authen : Nat) : Query where
  id := s.idSeq + 1
  authen := authen
  client := true
  res := .absent
  deco := none
  prev := none
  hasnext := false
  request := s.query.cells.length

def handleAccessRequest (s : Radiusd) : Except Fault Radiusd :=
  let p := s.query.cells.length
  let authen := firstFrom conf.length 0 env.fits
  let q := firstQuery s (authen.getD 0)
  let s := insertQuery s q
  match authen with
  | none => radiusdAccessRequestAborted s p
  | some _ =>
    if !(authenOf conf q).auth.userpass && !(authenOf conf q).auth.accsreq then
      radiusdAccessRequestAborted s p
    else
      raidusQueryAccessRequest conf env s p

inductive ModuleMsg where
  | userpass
  | accsreqAnswer (pkt : Bool)
  | accsreqNext (pkt : Bool)
  | reqdecoDone (pkt : Bool)
  | resdecoDone (pkt : Bool)
  | unconverted
  | accsreqAborted
  deriving DecidableEq

def decoTypeOf (s : Radiusd) (q : Query) : Option DecoType :=
  q.deco.bind fun deco => s.decoType q.authen deco

def handleModuleMsg (s : Radiusd) (p : Nat) : ModuleMsg → Except Fault Radiusd
  | .userpass =>
    if env.alloc then do
      let q ← getQuery s p
      let s := setQuery s p { q with res := .linked }
      radiusQueryClientSecret s p
      radiusdAccessRequestAnswer conf env s p
    else
      radiusdAccessRequestAborted s p
  | .accsreqAnswer pkt =>
    if pkt then radiusdAccessRequestAnswer conf env s p else radiusdAccessRequestAborted s p
  | .accsreqNext pkt =>
    if pkt then radiusdAccessRequestNext conf env s p else radiusdAccessRequestAborted s p
  | .reqdecoDone pkt => do
    let q ← getQuery s p
    if decoTypeOf s q ≠ some .reqdeco then
      return s
    -- the response of the query, if it has one, refers to the packet that is deleted
    let res := if pkt && q.res == .linked then .dangling else q.res
    raidusQueryAccessRequest conf env (setQuery s p { q with res }) p
  | .resdecoDone pkt => do
    let q ← getQuery s p
    if decoTypeOf s q ≠ some .resdeco then
      return s
    if pkt then
      if q.res = .absent then
        .error .packet
      else
        radiusQueryAccessResponse conf env (setQuery s p { q with res := .linked }) p
    else
      radiusQueryAccessResponse conf env s p
  | .unconverted => radiusdAccessRequestAborted s p
  | .accsreqAborted => radiusdAccessRequestAborted s p

end

def radiusdFindQuery (s : Radiusd) (id : UInt32) : Option Nat :=
  s.query.find fun q => q.id == id

inductive Event where
  | accessRequest (env : Env)
  | moduleMsg (id : UInt32) (msg : ModuleMsg) (env : Env)

def radiusdEvent (conf : List Authentication) (s : Radiusd) : Event → Except Fault Radiusd
  | .accessRequest env => handleAccessRequest conf env s
  | .moduleMsg id msg env =>
    match radiusdFindQuery s id with
    | none => .ok s
    | some p => handleModuleMsg conf env s p msg

def queryStep (conf : List Authentication) (s : Radiusd) (event : Event) : Option Radiusd :=
  (radiusdEvent conf s event).toOption

def init : Radiusd where
  query := .empty
  idSeq := 0
  decoType := fun _ _ => none
  sent := []

end RadiusQuery
