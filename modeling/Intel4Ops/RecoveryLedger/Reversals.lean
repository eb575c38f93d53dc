import Intel4Ops.RecoveryLedger.Integrity

/-!
# Recovery ledger: bounded reversals

A reversal is posted with a negative amount whatever entry it names, and its headroom is the
difference of two magnitudes. Over the runs whose posted reversals name positive entries the
cumulative effect of every entry stays between zero and its amount; a reversal of a negative entry
always leaves that range. The headroom is computed with 28 digits, so a further condition asks
that it is not rounded above what remains.
-/

namespace Intel4Ops.RecoveryLedger

open Lib Lib.Decimal List

/-! ## The cumulative effect of an entry -/

variable {db db' : Db} {call : Call} {e : VerifiedValueLedgerEntry}

/-- The sum of all entries that reverse `entryId`. -/
def reversedSum (db : Db) (entryId : UUID) : ℚ :=
  ((db.ledgerEntries.filter fun e => e.reversalOfLedgerEntryId = some entryId).map (·.amount)).sum

/-- What an entry amounts to together with its reversals. -/
def cumulativeEffect (db : Db) (e : VerifiedValueLedgerEntry) : ℚ := e.amount + reversedSum db e.id

/-- The cumulative effect of every entry lies between zero and its amount. -/
def ReversalsBounded (db : Db) : Prop :=
  ∀ e ∈ db.ledgerEntries, min 0 e.amount ≤ cumulativeEffect db e ∧
    cumulativeEffect db e ≤ max 0 e.amount

instance (db : Db) : Decidable (ReversalsBounded db) := by
  unfold ReversalsBounded
  infer_instance

/-- The request posts a reversal of an entry that is negative, or whose headroom is rounded above
what remains of it. -/
def ReversesUnbounded (db : Db) (call : Call) : Prop :=
  match call.request with
  | .reversal entryId payload =>
    (∃ original ∈ db.ledgerEntries, original.id = entryId ∧
      original.organizationId = call.organizationId ∧
      payload.amount ≤ reversalHeadroom db call.organizationId original ∧
      (original.amount < 0 ∨
        cumulativeEffect db original < reversalHeadroom db call.organizationId original)) ∧
    ∀ e ∈ db.ledgerEntries, e.organizationId = call.organizationId →
      e.idempotencyKey ≠ payload.idempotencyKey
  | _ => False

instance (db : Db) : (call : Call) → Decidable (ReversesUnbounded db call)
  | ⟨_, _, _, _, _, .reversal ..⟩ => inferInstanceAs (Decidable (_ ∧ _))
  | ⟨_, _, _, _, _, .createCase ..⟩ | ⟨_, _, _, _, _, .updateCase ..⟩
  | ⟨_, _, _, _, _, .createExecution ..⟩ | ⟨_, _, _, _, _, .transitionExecution ..⟩
  | ⟨_, _, _, _, _, .createMeasurement ..⟩ | ⟨_, _, _, _, _, .submitMeasurement ..⟩
  | ⟨_, _, _, _, _, .financeReview ..⟩ | ⟨_, _, _, _, _, .verify ..⟩
  | ⟨_, _, _, _, _, .adjustment ..⟩ | ⟨_, _, _, _, _, .external ..⟩ =>
    inferInstanceAs (Decidable False)

/-! ## Reversals and what they name -/

/-- Stored amounts have twelve places, and a reversal is a negative entry that names an entry of
its own organization. -/
structure ReversalLinks (db : Db) : Prop where
  places : ∀ e ∈ db.ledgerEntries, Rounding.HasPlaces 12 e.amount
  names : ∀ r ∈ db.ledgerEntries, ∀ id, r.reversalOfLedgerEntryId = some id →
    r.amount < 0 ∧ ∃ e ∈ db.ledgerEntries, e.id = id ∧ e.organizationId = r.organizationId

theorem IsReversal.amount_neg {original : VerifiedValueLedgerEntry}
    {payload : LedgerMutationCreate} (h : IsReversal db original payload e) (hne : e.amount ≠ 0) :
    e.amount < 0 := by
  refine lt_of_le_of_ne ?_ hne
  have hpos := halfUp.places_nonneg (p := 12) (context_pos payload.amount_pos).le
  rw [h.amount, context_neg, Rounding.places_neg]
  linarith

variable {caseId org : UUID}

/-- Posting an entry without a reversal link, or a reversal of a stored entry, keeps the links. -/
theorem ReversalLinks.post {key : String} {currency : String} (hlinks : ReversalLinks db)
    (h : Posted db db' org key caseId currency e)
    (hnames : ∀ id, e.reversalOfLedgerEntryId = some id →
      e.amount < 0 ∧ ∃ o ∈ db.ledgerEntries, o.id = id ∧ o.organizationId = e.organizationId) :
    ReversalLinks db' where
  places r hr := by
    rcases h.mem hr with hr | rfl
    · exact hlinks.places r hr
    · exact h.places
  names r hr id hid := by
    rw [h.entries]
    obtain ⟨hneg, o, ho, hsame⟩ : r.amount < 0 ∧
        ∃ o ∈ db.ledgerEntries, o.id = id ∧ o.organizationId = r.organizationId := by
      rcases h.mem hr with hr | rfl
      · exact hlinks.names r hr id hid
      · exact hnames id hid
    exact ⟨hneg, o, mem_append_left _ ho, hsame⟩

theorem ReversalLinks.same (hlinks : ReversalLinks db)
    (hentries : db'.ledgerEntries = db.ledgerEntries) : ReversalLinks db' where
  places := by
    rw [hentries]
    exact hlinks.places
  names := by
    rw [hentries]
    exact hlinks.names

theorem ReversalLinks.step (hlinks : ReversalLinks db) (h : LedgerStep db call db') :
    ReversalLinks db' := by
  cases h with
  | record _ _ _ hentries | review row v status _ _ _ _ _ _ _ _ _ hentries =>
    exact hlinks.same hentries
  | approve payload row v e caseId currency happroval =>
    rcases happroval.entries with hstored | ⟨hposted, hrecovery⟩
    · exact hlinks.same hstored.entries
    · refine hlinks.post hposted fun id hid => ?_
      rw [hrecovery.reversalOf] at hid
      cases hid
  | answer _ _ _ hentries => exact hlinks.same hentries
  | correct entryId payload original e currency hmem hid horg _ _ _ _ hposted hkind =>
    refine hlinks.post hposted fun id hid' => ?_
    rcases hkind with ⟨-, hadjust⟩ | ⟨-, hreverse⟩
    · rw [hadjust.reversalOf] at hid'
      cases hid'
    · rw [hreverse.reversalOf] at hid'
      exact ⟨hreverse.amount_neg hposted.nonzero, original, hmem, Option.some.inj hid',
        horg.trans hposted.org.symm⟩

/-! ## The reversal sum -/

theorem ReversalLinks.hasPlaces_effect (hlinks : ReversalLinks db) (he : e ∈ db.ledgerEntries) :
    Rounding.HasPlaces 12 (cumulativeEffect db e) := by
  refine (hlinks.places e he).add (.sum fun x hx => ?_)
  obtain ⟨r, hr, rfl⟩ := mem_map.1 hx
  exact hlinks.places r (mem_of_mem_filter hr)

theorem Posted.reversedSum {key : String} {currency : String}
    (h : Posted db db' org key caseId currency e) (id : UUID) :
    reversedSum db' id =
      reversedSum db id + if e.reversalOfLedgerEntryId = some id then e.amount else 0 := by
  rw [RecoveryLedger.reversedSum, h.entries, filter_append, map_append, sum_append]
  by_cases hid : e.reversalOfLedgerEntryId = some id
  · simp [hid, RecoveryLedger.reversedSum]
  · simp [hid, RecoveryLedger.reversedSum]

theorem ReversalLinks.reversedSum_of_fresh (hlinks : ReversalLinks db) {id : UUID}
    (hfresh : ∀ e ∈ db.ledgerEntries, e.id ≠ id) : reversedSum db id = 0 := by
  have hnone : (db.ledgerEntries.filter fun e => e.reversalOfLedgerEntryId = some id) = [] := by
    rw [filter_eq_nil_iff]
    intro r hr hid
    obtain ⟨-, o, ho, hoid, -⟩ := hlinks.names r hr id (of_decide_eq_true hid)
    exact hfresh o ho hoid
  rw [reversedSum, hnone]
  rfl

/-! ## Steps keep the effects bounded -/

/-- Posting an entry keeps the effects bounded when the entry it reverses stays bounded. -/
theorem ReversalsBounded.post {key : String} {currency : String} (hbounded : ReversalsBounded db)
    (hlinks : ReversalLinks db) (h : Posted db db' org key caseId currency e)
    (hnames : ∀ id, e.reversalOfLedgerEntryId = some id → ∃ o ∈ db.ledgerEntries, o.id = id)
    (hreversed : ∀ o ∈ db.ledgerEntries, e.reversalOfLedgerEntryId = some o.id →
      min 0 o.amount ≤ cumulativeEffect db o + e.amount ∧
        cumulativeEffect db o + e.amount ≤ max 0 o.amount) : ReversalsBounded db' := by
  intro o ho
  rw [cumulativeEffect, h.reversedSum, ← add_assoc, ← cumulativeEffect]
  rcases h.mem ho with ho | rfl
  · by_cases hid : e.reversalOfLedgerEntryId = some o.id
    · rw [if_pos hid]
      exact hreversed o ho hid
    · rw [if_neg hid, add_zero]
      exact hbounded o ho
  · -- The new entry is not reversed yet.
    have hfresh : ∀ o' ∈ db.ledgerEntries, o'.id ≠ o.id := fun o' ho' hid =>
      h.free o' ho' (.inl hid)
    have hself : o.reversalOfLedgerEntryId ≠ some o.id := by
      intro hid
      obtain ⟨o', ho', hid'⟩ := hnames o.id hid
      exact hfresh o' ho' hid'
    rw [if_neg hself, add_zero, cumulativeEffect, hlinks.reversedSum_of_fresh hfresh, add_zero]
    exact ⟨min_le_right 0 o.amount, le_max_right 0 o.amount⟩

theorem ReversalsBounded.same (hbounded : ReversalsBounded db)
    (hentries : db'.ledgerEntries = db.ledgerEntries) : ReversalsBounded db' := by
  unfold ReversalsBounded cumulativeEffect reversedSum
  rw [hentries]
  exact hbounded

theorem IsReversal.amount_ge {original : VerifiedValueLedgerEntry}
    {payload : LedgerMutationCreate} (h : IsReversal db original payload e)
    (hlinks : ReversalLinks db) (hmem : original ∈ db.ledgerEntries)
    (hremaining : reversalHeadroom db original.organizationId original ≤
      cumulativeEffect db original) : -e.amount ≤ cumulativeEffect db original := by
  have hcontext : context payload.amount ≤ reversalHeadroom db original.organizationId original := by
    have hmono := context_mono payload.amount_pos h.headroom
    rwa [reversalHeadroom, exact_context, ← reversalHeadroom] at hmono
  have hplaces := halfUp.places_mono (p := 12) (hcontext.trans hremaining)
  rw [halfUp.places_of_hasPlaces (hlinks.hasPlaces_effect hmem)] at hplaces
  rwa [h.amount, context_neg, Rounding.places_neg, neg_neg]

theorem ReversalsBounded.step (hbounded : ReversalsBounded db) (hlinks : ReversalLinks db)
    (hinv : Integrity db) (hcondition : ¬ ReversesUnbounded db call) (h : LedgerStep db call db') :
    ReversalsBounded db' := by
  cases h with
  | record _ _ _ hentries | review row v status _ _ _ _ _ _ _ _ _ hentries =>
    exact hbounded.same hentries
  | approve payload row v e caseId currency happroval =>
    rcases happroval.entries with hstored | ⟨hposted, hrecovery⟩
    · exact hbounded.same hstored.entries
    · refine hbounded.post hlinks hposted (fun id hid => ?_) fun o _ hid => ?_
      · rw [hrecovery.reversalOf] at hid
        cases hid
      · rw [hrecovery.reversalOf] at hid
        cases hid
  | answer _ _ _ hentries => exact hbounded.same hentries
  | correct entryId payload original e currency hmem hid horg _ _ _ _ hposted hkind =>
    rcases hkind with ⟨-, hadjust⟩ | ⟨hrequest, hreverse⟩
    · refine hbounded.post hlinks hposted (fun id hid' => ?_) fun o _ hid' => ?_
      · rw [hadjust.reversalOf] at hid'
        cases hid'
      · rw [hadjust.reversalOf] at hid'
        cases hid'
    · have hremaining : 0 ≤ original.amount ∧
          reversalHeadroom db call.organizationId original ≤ cumulativeEffect db original := by
        simp only [ReversesUnbounded, hrequest] at hcondition
        rw [← not_lt, ← not_lt, ← not_or]
        intro hbad
        refine hcondition ⟨⟨original, hmem, hid, horg, horg ▸ hreverse.headroom, hbad⟩,
          fun e' he' heorg hekey => ?_⟩
        exact hposted.free e' he'
          (.inr (.inl ⟨heorg.trans hposted.org.symm, hekey.trans hposted.key.symm⟩))
      refine hbounded.post hlinks hposted (fun id hid' => ?_) fun o ho hid' => ?_
      · rw [hreverse.reversalOf] at hid'
        exact ⟨original, hmem, Option.some.inj hid'⟩
      · rw [hreverse.reversalOf] at hid'
        obtain rfl := hinv.entryIds.eq_of_key_eq hmem ho (Option.some.inj hid')
        have hneg := hreverse.amount_neg hposted.nonzero
        have hle := hreverse.amount_ge hlinks hmem (horg ▸ hremaining.2)
        have hupper := (hbounded original hmem).2
        rw [min_eq_left hremaining.1]
        constructor
        · linarith
        · linarith

/-! ## Whole runs -/

theorem reversalLinks_empty (external : External) : ReversalLinks (Db.empty external) where
  places _ he := absurd he not_mem_nil
  names _ hr := absurd hr not_mem_nil

/-- In every run whose posted reversals name positive entries, with a headroom not rounded above
what remains, the cumulative effect of every entry stays between zero and its amount. -/
theorem reversalsBounded_run (external : External) (calls : List Call)
    (h : serve.AllSteps (fun db call => ¬ ReversesUnbounded db call) (Db.empty external) calls) :
    ∀ as bs, calls = as ++ bs → ReversalsBounded (serve.run (Db.empty external) as) := by
  rintro as bs rfl
  have hprefix := ((Service.allSteps_append _ _ as bs).1 h).1
  have hall : Integrity (serve.run (Db.empty external) as) ∧
      ReversalLinks (serve.run (Db.empty external) as) ∧
      ReversalsBounded (serve.run (Db.empty external) as) := by
    refine Service.run_invariant_of
      (P := fun db => Integrity db ∧ ReversalLinks db ∧ ReversalsBounded db)
      ⟨integrity_empty external, reversalLinks_empty external,
        fun _ he => absurd he not_mem_nil⟩ ?_ hprefix
    rintro s call s' r ⟨hinv, hlinks, hbounded⟩ hcondition hok
    obtain ⟨hstep, -⟩ := serve_ledgerStep hinv.records hok
    exact ⟨hinv.step hstep, hlinks.step hstep, hbounded.step hlinks hinv hcondition hstep⟩
  exact hall.2.2

/-! ## A reversed reduction -/

namespace ReversedReduction

open Sample

/-- The first measurement is verified for 100 and reduced by 5. -/
def prelude : List Call :=
  submitted ++ [send 60 8 (.verify 108 (verification "first")),
    send 61 8 (.adjustment 121 (correction "reduce" (some .negative)))]

/-- Five of the verified hundred are reversed, and then another five. -/
theorem reversalsBounded_run_verified : ReversalsBounded (serve.run (Db.empty external)
    (prelude ++ [send 62 8 (.reversal 121 (correction "reverse" none)),
      send 63 8 (.reversal 121 (correction "reverse-again" none))])) :=
  reversalsBounded_run external _ (by decide +kernel) _ [] (append_nil _).symm

/-- Reversing the reduction takes another five away instead of giving five back. -/
theorem not_reversalsBounded : ¬ ∀ (external : External) (calls : List Call),
    ReversalsBounded (serve.run (Db.empty external) calls) := by
  intro h
  have hbounded := h external (prelude ++ [send 62 8 (.reversal 122 (correction "reverse" none))])
  revert hbounded
  decide +kernel

end ReversedReduction

end Intel4Ops.RecoveryLedger
