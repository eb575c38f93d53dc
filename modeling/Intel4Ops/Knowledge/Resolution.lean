import Intel4Ops.Knowledge.Lifecycle

/-!
# Resolution of a stable code

A request is resolved to the most specific active definition of its stable code. Definitions are
unique by their scope key, which is made of the first code that they carry, while a request asks for
a scope type and compares the code of that type as it is spelled. Where definitions carry no code of
another scope, and codes that name one key are spelled alike, resolution is unambiguous.
-/

namespace Intel4Ops.Knowledge

open Lib List Table

/-- `ResolveRequest` -/
structure ResolveRequest where
  organizationId : UUID
  stableCode : String
  (industryPackCode regionCode : Option String)
  effectiveAt : Option Instant

/-! ## Resolution -/

/-- `KnowledgeResolutionService.precedence` -/
def precedence : List ScopeType := [.organization, .regional, .industry, .sharedCore]

def ScopeType.value : ScopeType → String
  | sharedCore => "shared_core"
  | industry => "industry"
  | regional => "regional"
  | organization => "organization"

def Eligible (request : ResolveRequest) (d : Definition) : ScopeType → Prop
  | .organization => d.ownerOrganizationId = some request.organizationId
  | .regional => d.scopeType = .regional ∧ d.regionCode = request.regionCode
  | .industry => d.scopeType = .industry ∧ d.industryPackCode = request.industryPackCode
  | .sharedCore => d.scopeType = .sharedCore

instance (request : ResolveRequest) (d : Definition) :
    (scope : ScopeType) → Decidable (Eligible request d scope)
  | .organization =>
    inferInstanceAs (Decidable (d.ownerOrganizationId = some request.organizationId))
  | .regional =>
    inferInstanceAs (Decidable (d.scopeType = .regional ∧ d.regionCode = request.regionCode))
  | .industry =>
    inferInstanceAs
      (Decidable (d.scopeType = .industry ∧ d.industryPackCode = request.industryPackCode))
  | .sharedCore => inferInstanceAs (Decidable (d.scopeType = .sharedCore))

def Version.effective (v : Version) (instant : Instant) : Prop :=
  v.lifecycleStatus = .active ∧ (∀ start ∈ v.effectiveFrom, start ≤ instant) ∧
    ∀ stop ∈ v.effectiveTo, instant < stop

instance (v : Version) (instant : Instant) : Decidable (v.effective instant) :=
  inferInstanceAs (Decidable (_ ∧ (_ ∧ _)))

/-- The active versions of a stable code that an organization sees, with their definitions. -/
def candidates (db : Db) (request : ResolveRequest) (instant : Instant) :
    List (Definition × Version) :=
  (db.definitions.filter fun d =>
      d.stableCode = request.stableCode ∧ d.visibleTo (some request.organizationId)).flatMap
    fun d => ((db.versionsOf d.id).filter (·.effective instant)).map fun v => (d, v)

/-- `ResolvedKnowledge`: the pair, and the scopes in which there was none. -/
structure ResolvedKnowledge where
  definition : Definition
  version : Version
  fallbackSteps : List String

/-- The loop over the scopes, of which some are done. -/
def resolveFrom (rows : List (Definition × Version)) (request : ResolveRequest) :
    List ScopeType → List String → Option ResolvedKnowledge
  | [], _ => none
  | scope :: scopes, fallback =>
    match rows.find? fun p => Eligible request p.1 scope with
    | some p => some ⟨p.1, p.2, fallback⟩
    | none =>
      resolveFrom rows request scopes
        (fallback ++ [scope.value ++ ":no_eligible_active_definition"])

/-- The loop of `KnowledgeResolutionService.resolve` over the rows of its query. -/
def resolveRows (rows : List (Definition × Version)) (request : ResolveRequest) :
    Option ResolvedKnowledge :=
  resolveFrom rows request precedence []

/-- `KnowledgeResolutionService.resolve`, with the rows in the order of the tables. -/
def resolve (db : Db) (request : ResolveRequest) (now : Instant) : Option ResolvedKnowledge :=
  resolveRows (candidates db request (request.effectiveAt.getD now)) request

/-! ## What is claimed of a request -/

/-- A pair is eligible in a scope, and no pair is in a more specific one. -/
def MostSpecific (rows : List (Definition × Version)) (request : ResolveRequest)
    (p : Definition × Version) : Prop :=
  ∃ before scope after, precedence = before ++ scope :: after ∧ Eligible request p.1 scope ∧
    ∀ scope' ∈ before, ∀ q ∈ rows, ¬ Eligible request q.1 scope'

/-- Resolution is unambiguous and most specific, and codes are compared as scope keys are. -/
structure Resolves (env : Env) (db : Db) (request : ResolveRequest) (instant : Instant) : Prop where
  unambiguous : ∀ scope, ∀ p ∈ candidates db request instant, ∀ q ∈ candidates db request instant,
    Eligible request p.1 scope → Eligible request q.1 scope → p = q
  orderFree : ∀ rows, rows.Perm (candidates db request instant) →
    resolveRows rows request = resolveRows (candidates db request instant) request
  mostSpecific : ∀ r ∈ resolveRows (candidates db request instant) request,
    (r.definition, r.version) ∈ candidates db request instant ∧
      MostSpecific (candidates db request instant) request (r.definition, r.version)
  unresolved : resolveRows (candidates db request instant) request = none →
    ∀ scope, ∀ p ∈ candidates db request instant, ¬ Eligible request p.1 scope
  sameRegion : ∀ p ∈ candidates db request instant, ∀ code ∈ request.regionCode,
    p.1.scopeKey = .regional (env.upper code) → Eligible request p.1 .regional
  sameIndustry : ∀ p ∈ candidates db request instant, ∀ code ∈ request.industryPackCode,
    p.1.scopeKey = .industry (env.upper code) → Eligible request p.1 .industry

/-- A definition carries no code that its scope type does not ask for. -/
def Plain (payload : DefinitionCreate) : Prop :=
  (payload.scopeType = .industry → payload.regionCode = none) ∧
    (payload.scopeType = .sharedCore → payload.regionCode = none ∧ payload.industryPackCode = none)

instance (payload : DefinitionCreate) : Decidable (Plain payload) :=
  inferInstanceAs (Decidable (_ ∧ _))

/-- A call that creates a definition creates a plain one. -/
def PlainRequest : Request → Prop
  | .create payload => Plain payload
  | _ => True

instance : (request : Request) → Decidable (PlainRequest request)
  | .create payload => inferInstanceAs (Decidable (Plain payload))
  | .createVersion _ _ => isTrue trivial
  | .createCase _ _ => isTrue trivial
  | .run _ => isTrue trivial
  | .markValidated _ => isTrue trivial
  | .transition _ _ _ => isTrue trivial

/-- Two codes with one key are the same text. -/
def SameSpelling (env : Env) (code code' : Option String) : Prop :=
  ∀ c ∈ code, ∀ c' ∈ code', env.upper c = env.upper c' → c = c'

instance (env : Env) : (code code' : Option String) → Decidable (SameSpelling env code code')
  | none, _ => isTrue fun _ h => absurd h (Option.not_mem_none _)
  | some _, none => isTrue fun _ _ _ h => absurd h (Option.not_mem_none _)
  | some c, some c' =>
    decidable_of_iff (env.upper c = env.upper c' → c = c')
      ⟨fun h _ hc _ hc' => Option.some.inj hc ▸ Option.some.inj hc' ▸ h, fun h => h c rfl c' rfl⟩

/-- The codes of a request are spelled as the definitions with its stable code spell them. -/
def SpelledAlike (env : Env) (db : Db) (request : ResolveRequest) : Prop :=
  ∀ d ∈ db.definitions, d.stableCode = request.stableCode →
    SameSpelling env d.regionCode request.regionCode ∧
      SameSpelling env d.industryPackCode request.industryPackCode

instance (env : Env) (db : Db) (request : ResolveRequest) :
    Decidable (SpelledAlike env db request) :=
  inferInstanceAs (Decidable (∀ _ ∈ _, _))

/-! ## The loop over the scopes -/

variable {env : Env} {db db' : Db} {call : Call} {request : ResolveRequest} {instant : Instant}

theorem mem_candidates {p : Definition × Version} : p ∈ candidates db request instant ↔
      (p.1 ∈ db.definitions ∧ p.1.stableCode = request.stableCode ∧
        p.1.visibleTo (some request.organizationId)) ∧
      (p.2 ∈ db.versions ∧ p.2.definitionId = p.1.id) ∧ p.2.effective instant := by
  obtain ⟨d, v⟩ := p
  simp only [candidates, mem_flatMap, mem_map, mem_filter, decide_eq_true_eq,
    Db.versionsOf, Prod.mk.injEq]
  constructor
  · rintro ⟨e, he, w, hw, rfl, rfl⟩
    exact ⟨he, hw⟩
  · rintro ⟨hd, hv⟩
    exact ⟨d, hd, v, hv, rfl, rfl⟩

variable {fallback : List String} {scopes : List ScopeType}

theorem resolveFrom_spec {rows : List (Definition × Version)} {r : ResolvedKnowledge}
    (h : resolveFrom rows request scopes fallback = some r) :
    (r.definition, r.version) ∈ rows ∧
      ∃ before scope after, scopes = before ++ scope :: after ∧
        Eligible request r.definition scope ∧
        ∀ scope' ∈ before, ∀ q ∈ rows, ¬ Eligible request q.1 scope' := by
  induction scopes generalizing fallback with
  | nil => cases h
  | cons scope scopes ih =>
    rw [resolveFrom] at h
    split at h
    case h_1 p hfind =>
      obtain ⟨hmem, heligible⟩ := find?_spec hfind
      obtain rfl := Option.some.inj h
      exact ⟨hmem, [], scope, scopes, rfl, heligible, by simp⟩
    case h_2 hfind =>
      obtain ⟨hmem, before, scope', after, rfl, heligible, hbefore⟩ := ih h
      refine ⟨hmem, scope :: before, scope', after, rfl, heligible, ?_⟩
      rintro scope'' hscope q hq
      rcases mem_cons.1 hscope with rfl | hscope
      · simpa using List.find?_eq_none.1 hfind q hq
      · exact hbefore scope'' hscope q hq

theorem resolveFrom_none {rows : List (Definition × Version)}
    (h : resolveFrom rows request scopes fallback = none) :
    ∀ scope ∈ scopes, ∀ p ∈ rows, ¬ Eligible request p.1 scope := by
  induction scopes generalizing fallback with
  | nil => simp
  | cons scope scopes ih =>
    rw [resolveFrom] at h
    split at h
    case h_1 p hfind => cases h
    case h_2 hfind =>
      intro scope' hscope p hp
      rcases mem_cons.1 hscope with rfl | hscope
      · simpa using List.find?_eq_none.1 hfind p hp
      · exact ih h scope' hscope p hp

theorem resolveFrom_perm {rows rows' : List (Definition × Version)} (hperm : rows.Perm rows')
    (hone : ∀ scope, ∀ p ∈ rows', ∀ q ∈ rows',
      Eligible request p.1 scope → Eligible request q.1 scope → p = q)
    (scopes : List ScopeType) (fallback : List String) :
    resolveFrom rows request scopes fallback = resolveFrom rows' request scopes fallback := by
  induction scopes generalizing fallback with
  | nil => rfl
  | cons scope scopes ih =>
    have hfind : rows.find? (fun p => Eligible request p.1 scope) =
        rows'.find? fun p => Eligible request p.1 scope := by
      refine find?_perm hperm fun p hp q hq hpe hqe => ?_
      exact hone scope p hp q hq (of_decide_eq_true hpe) (of_decide_eq_true hqe)
    rw [resolveFrom, resolveFrom, hfind]
    cases rows'.find? (fun p => Eligible request p.1 scope) with
    | none => exact ih _
    | some p => rfl

/-! ## Definitions with the key of their scope -/

/-- The definitions were created from plain payloads, and no two share a code and a key. -/
structure Registered (env : Env) (db : Db) : Prop extends SingleActive db where
  keys : Unique (fun d : Definition => (d.stableCode, d.scopeKey)) db.definitions
  plain : ∀ d ∈ db.definitions, ∃ payload id, payload.validateScope = .ok () ∧ Plain payload ∧
    d = payload.row env id

theorem registered_empty (env : Env) : Registered env Db.empty where
  versionIds := Unique.nil
  oneActive := by simp [Db.empty]
  keys := Unique.nil
  plain := by simp [Db.empty]

theorem Registered.step (h : Registered env db) (hstep : KnowledgeStep env db call db')
    (hplain : PlainRequest call.request) : Registered env db' := by
  have hsingle := h.toSingleActive.step hstep
  cases hstep with
  | define payload hrequest hscope hkey hfresh =>
    rw [hrequest] at hplain
    refine ⟨hsingle, h.keys.append ?_, ?_⟩
    · intro d hd heq
      obtain ⟨hcode, hscopeKey⟩ := Prod.mk.inj heq
      exact hkey d hd ⟨hcode, hscopeKey⟩
    · intro d hd
      rcases mem_append.1 hd with hd | hd
      · exact h.plain d hd
      · obtain rfl := mem_singleton.1 hd
        exact ⟨payload, call.drawn, hscope, hplain, rfl⟩
  | addVersion definitionId payload fingerprint hrequest hgreater hfresh =>
    exact ⟨hsingle, h.keys, h.plain⟩
  | addCase version payload hmem hstatus hfresh | validate version hmem
  | move version target requested hmem hrequest hactive => exact ⟨hsingle, h.keys, h.plain⟩

/-- What `validate_scope` accepts. -/
structure ValidScope (d : Definition) : Prop where
  owned : d.ownerOrganizationId ≠ none ↔ d.scopeType = .organization
  industry : d.scopeType = .industry → d.industryPackCode ≠ none
  regional : d.scopeType = .regional → d.regionCode ≠ none

theorem validScope_of_ok (env : Env) {payload : DefinitionCreate} (h : payload.validateScope = .ok ())
    (id : UUID) : ValidScope (payload.row env id) := by
  simp only [DefinitionCreate.validateScope, bind_eq_ok, ensure_eq_ok] at h
  obtain ⟨_, howner, _, hnone, _, hindustry, _, hregional, -⟩ := h
  have hsome : ∀ {code : Option String}, truthy code = true → code ≠ none := by
    rintro code hcode rfl
    cases hcode
  refine ⟨⟨?_, ?_⟩, fun htype => hsome (hindustry htype), fun htype => hsome (hregional htype)⟩
  · intro howned
    by_contra htype
    exact howned (hnone htype)
  · intro htype
    exact Option.isSome_iff_ne_none.1 (howner htype)

def requestKey (env : Env) (request : ResolveRequest) : ScopeType → ScopeKey
  | .organization => .organization request.organizationId
  | .regional => .regional (env.upper (request.regionCode.getD ""))
  | .industry => .industry (env.upper (request.industryPackCode.getD ""))
  | .sharedCore => .sharedCore

namespace Registered

variable {d : Definition} {scope : ScopeType}

section

variable (h : Registered env db)
include h

theorem scopeKey_of_eligible (hd : d ∈ db.definitions) (heligible : Eligible request d scope) :
    d.scopeKey = requestKey env request scope := by
  obtain ⟨payload, id, hok, ⟨hindustry, hshared⟩, rfl⟩ := h.plain d hd
  have hvalid := validScope_of_ok env hok id
  have hunowned : payload.scopeType ≠ .organization → payload.ownerOrganizationId = none := by
    intro htype
    by_contra howner
    exact htype (hvalid.owned.1 howner)
  cases scope with
  | organization =>
    have howner : payload.ownerOrganizationId = some request.organizationId := heligible
    simp [DefinitionCreate.row, scopeKey, requestKey, howner]
  | regional =>
    obtain ⟨htype, hcode⟩ : payload.scopeType = .regional ∧
      payload.regionCode = request.regionCode := heligible
    have howner := hunowned (by simp [htype])
    obtain ⟨code, hsome⟩ := Option.ne_none_iff_exists'.1 (hvalid.regional htype)
    have hregion : payload.regionCode = some code := hsome
    rw [hregion] at hcode
    simp [DefinitionCreate.row, scopeKey, requestKey, howner, hregion, ← hcode]
  | industry =>
    obtain ⟨htype, hcode⟩ : payload.scopeType = .industry ∧
      payload.industryPackCode = request.industryPackCode := heligible
    have howner := hunowned (by simp [htype])
    have hregion := hindustry htype
    obtain ⟨code, hsome⟩ := Option.ne_none_iff_exists'.1 (hvalid.industry htype)
    have hpack : payload.industryPackCode = some code := hsome
    rw [hpack] at hcode
    simp [DefinitionCreate.row, scopeKey, requestKey, howner, hregion, hpack, ← hcode]
  | sharedCore =>
    have htype : payload.scopeType = .sharedCore := heligible
    have howner := hunowned (by simp [htype])
    obtain ⟨hregion, hpack⟩ := hshared htype
    simp [DefinitionCreate.row, scopeKey, requestKey, howner, hregion, hpack]

/-- One definition at most is eligible in a scope, and one of its versions is active. -/
theorem unambiguous {p q : Definition × Version} (hp : p ∈ candidates db request instant)
    (hq : q ∈ candidates db request instant) (hpe : Eligible request p.1 scope)
    (hqe : Eligible request q.1 scope) : p = q := by
  obtain ⟨⟨hpd, hpcode, -⟩, ⟨hpv, hpid⟩, hpactive⟩ := mem_candidates.1 hp
  obtain ⟨⟨hqd, hqcode, -⟩, ⟨hqv, hqid⟩, hqactive⟩ := mem_candidates.1 hq
  have hkey : p.1.scopeKey = q.1.scopeKey :=
    (h.scopeKey_of_eligible hpd hpe).trans (h.scopeKey_of_eligible hqd hqe).symm
  have hdefinition : p.1 = q.1 :=
    h.keys.eq_of_key_eq hpd hqd (Prod.ext (hpcode.trans hqcode.symm) hkey)
  have hid : p.2.id = q.2.id := by
    refine h.oneActive p.2 hpv q.2 hqv ?_ hpactive.1 hqactive.1
    rw [hpid, hqid, hdefinition]
  exact Prod.ext hdefinition (h.versionIds.eq_of_key_eq hpv hqv hid)

theorem regional_of_key (hd : d ∈ db.definitions) {key : String} (hkey : d.scopeKey = .regional key)
    :
    d.scopeType = .regional ∧ ∃ code, d.regionCode = some code ∧ env.upper code = key := by
  obtain ⟨payload, id, hok, ⟨hindustry, hshared⟩, rfl⟩ := h.plain d hd
  have hvalid := validScope_of_ok env hok id
  have hkey' : scopeKey env payload = .regional key := hkey
  unfold scopeKey at hkey'
  split at hkey'
  case h_1 => cases hkey'
  case h_2 _ _ _ code howner hregion =>
    refine ⟨?_, code, hregion, ScopeKey.regional.inj hkey'⟩
    show payload.scopeType = .regional
    cases htype : payload.scopeType with
    | regional => rfl
    | organization => exact absurd howner (hvalid.owned.2 htype)
    | industry => simp [hindustry htype] at hregion
    | sharedCore => simp [(hshared htype).1] at hregion
  case h_3 | h_4 => cases hkey'

theorem industry_of_key (hd : d ∈ db.definitions) {key : String} (hkey : d.scopeKey = .industry key)
    :
    d.scopeType = .industry ∧ ∃ code, d.industryPackCode = some code ∧ env.upper code = key := by
  obtain ⟨payload, id, hok, ⟨hindustry, hshared⟩, rfl⟩ := h.plain d hd
  have hvalid := validScope_of_ok env hok id
  have hkey' : scopeKey env payload = .industry key := hkey
  unfold scopeKey at hkey'
  split at hkey'
  case h_1 | h_2 => cases hkey'
  case h_3 _ _ _ code howner hregion hpack =>
    refine ⟨?_, code, hpack, ScopeKey.industry.inj hkey'⟩
    show payload.scopeType = .industry
    cases htype : payload.scopeType with
    | industry => rfl
    | organization => exact absurd howner (hvalid.owned.2 htype)
    | regional => exact absurd hregion (hvalid.regional htype)
    | sharedCore => simp [(hshared htype).2] at hpack
  case h_4 => cases hkey'

theorem resolves (hspelled : SpelledAlike env db request) : Resolves env db request instant where
  unambiguous := fun scope p hp q hq hpe hqe => h.unambiguous hp hq hpe hqe
  orderFree := fun rows hrows => resolveFrom_perm hrows
    (fun scope p hp q hq hpe hqe => h.unambiguous hp hq hpe hqe) precedence []
  mostSpecific := fun r hr => resolveFrom_spec hr
  unresolved := by
    intro hnone scope p hp
    refine resolveFrom_none hnone scope ?_ p hp
    cases scope <;> simp [precedence]
  sameRegion := by
    intro p hp code hcode hkey
    obtain ⟨⟨hd, hstable, -⟩, -⟩ := mem_candidates.1 hp
    obtain ⟨htype, code', hregion, hupper⟩ := h.regional_of_key hd hkey
    have hsame : code' = code := (hspelled p.1 hd hstable).1 code' hregion code hcode hupper
    exact ⟨htype, hregion.trans (hsame ▸ hcode.symm)⟩
  sameIndustry := by
    intro p hp code hcode hkey
    obtain ⟨⟨hd, hstable, -⟩, -⟩ := mem_candidates.1 hp
    obtain ⟨htype, code', hpack, hupper⟩ := h.industry_of_key hd hkey
    have hsame : code' = code := (hspelled p.1 hd hstable).2 code' hpack code hcode hupper
    exact ⟨htype, hpack.trans (hsame ▸ hcode.symm)⟩

end

end Registered

/-- Where all definitions are plain, a request that spells its codes as they do is resolved to the
most specific of at most one pair in each scope. -/
theorem resolves_of_plain (env : Env) (calls : List Call) (request : ResolveRequest)
    (instant : Instant)
    (hplain : (service env).AllSteps (fun _ call => PlainRequest call.request) Db.empty calls)
    (hspelled : SpelledAlike env ((service env).run Db.empty calls) request) :
    Resolves env ((service env).run Db.empty calls) request instant := by
  have hregistered : Registered env ((service env).run Db.empty calls) := by
    refine Service.run_invariant_of (registered_empty env) ?_ hplain
    intro db call db' reply hregistered hcall hserve
    obtain ⟨written, hwritten, hreply⟩ := map_eq_ok.1 hserve
    obtain ⟨rfl, -⟩ := Prod.mk.inj hreply
    exact hregistered.step (serve_step hwritten) hcall
  exact hregistered.resolves hspelled

/-! ## An industry definition that carries a region -/

namespace RegionalPack

open LateCase (libraries version countCase made)

def pack (regionCode : Option String) : DefinitionCreate where
  stableCode := "SHARED.COUNT"
  analyticalLevel := .arithmetic
  ownerOrganizationId := none
  industryPackCode := some "PACK-J2C"
  regionCode := regionCode
  scopeType := .industry
  isSystemDefinition := false

/-- A definition with an active version. -/
def published (id : UUID) (payload : DefinitionCreate) : List Call :=
  [made id (.create payload), made (id + 1) (.createVersion id version),
    made (id + 2) (.createCase (id + 1) (countCase "ONE" [.text "5"])),
    made (id + 3) (.run (id + 1)), made (id + 4) (.transition (id + 1) .inReview none),
    made (id + 5) (.markValidated (id + 1)), made (id + 6) (.transition (id + 1) .approved none),
    made (id + 7) (.transition (id + 1) .active none)]

def packRequest : ResolveRequest where
  organizationId := 7
  stableCode := "SHARED.COUNT"
  industryPackCode := some "PACK-J2C"
  regionCode := some "EU"
  effectiveAt := none

theorem resolves_of_pack :
    Resolves libraries ((service libraries).run Db.empty (published 1 (pack none))) packRequest 100 :=
  resolves_of_plain libraries (published 1 (pack none)) packRequest 100 (by decide +kernel)
    (by decide +kernel)

/-- One of the two definitions has a regional key, so the registry takes both. -/
def calls : List Call := published 1 (pack none) ++ published 11 (pack (some "EU"))

theorem two_eligible : ∃ p ∈ candidates ((service libraries).run Db.empty calls) packRequest 100,
      ∃ q ∈ candidates ((service libraries).run Db.empty calls) packRequest 100,
        Eligible packRequest p.1 .industry ∧ Eligible packRequest q.1 .industry ∧ p.1.id ≠ q.1.id := by
  decide +kernel

theorem not_resolves :
    ¬ Resolves libraries ((service libraries).run Db.empty calls) packRequest 100 := by
  intro h
  obtain ⟨p, hp, q, hq, hpe, hqe, hne⟩ := two_eligible
  exact hne (congrArg (fun r => r.1.id) (h.unambiguous .industry p hp q hq hpe hqe))

end RegionalPack

end Intel4Ops.Knowledge
