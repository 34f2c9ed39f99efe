import AgentStack.FileTree.Frames
import AgentStack.Runtime.TaskSteps
import AgentStack.SampleHost
import Mathlib.Logic.Relation

/-! The replay ledger under reservations and consumptions in any order. -/
namespace AgentStack.Runtime

open AgentStack.Core FileTree Crash KeyedList Reconcile DirTree

variable {host : Host} {s t : FS} {ledger : ReplayLedger}

inductive ReplayCall
  | reserve (request : Reservation)
  | consume (key transactionId : String) (consumedAt : Time)

def ReplayCall.run (host : Host) : ReplayCall → Prog ReplayEntry
  | .reserve request => reserveProof host request
  | .consume key transactionId consumedAt => consumeProof host key transactionId consumedAt

/-- The store after calls one after the other, whether they return or raise. -/
def replayRun (host : Host) (calls : List ReplayCall) (s : FS) : FS :=
  calls.foldl (fun s c => (c.run host).final s) s

/-- The moves of one entry: from absent to reserved, from reserved to consumed. -/
inductive EntryMove : Option ReplayEntry → Option ReplayEntry → Prop
  | reserve (e : ReplayEntry) (h : e.state = .reserved) : EntryMove none (some e)
  | consume (e : ReplayEntry) (consumedAt : Time) (h : e.state = .reserved) :
    EntryMove (some e) (some { e with state := .consumed, consumedAt := some consumedAt })

abbrev EntryMoves := Relation.ReflTransGen EntryMove

/-- What an entry keeps for ever; a tombstone keeps all of it. -/
structure ReplayEntry.Kept (e e' : ReplayEntry) : Prop where
  transaction : e'.boundTransactionId = e.boundTransactionId
  validated : e'.validatedAt = e.validatedAt
  expires : e'.proofExpiresAt = e.proofExpiresAt
  consumed : e.state = .consumed → e' = e

theorem EntryMoves.kept {e : ReplayEntry} {x : Option ReplayEntry} (h : EntryMoves (some e) x) :
    ∃ e', x = some e' ∧ e.Kept e' := by
  induction h with
  | refl => exact ⟨e, rfl, rfl, rfl, rfl, fun _ => rfl⟩
  | tail _ move ih =>
    obtain ⟨e', rfl, hk⟩ := ih
    cases move with
    | consume _ consumedAt hreserved =>
      refine ⟨_, rfl, hk.transaction, hk.validated, hk.expires, fun hdone => ?_⟩
      rw [hk.consumed hdone, hdone] at hreserved
      cases hreserved

/-! ### One call -/

section Step

theorem wellFormed_locals (hwf : s.WellFormed) (h : LedgerShows ledger s) :
    s.realDir localDir ∧ s.Clear localDir := by
  have hdir : s.realDir localDir := by
    apply hwf.parent_realDir (n := "approval-replay.json")
    show (s.get replayPath).isSome = true
    rw [h.stored]
    rfl
  exact ⟨hdir, (hwf.reaches hdir).clear⟩

/-- The ledger with one entry put is well formed when the entry is. -/
theorem LedgerShows.put (h : LedgerShows ledger s) {key : String} {e : ReplayEntry}
    (hkey : replayDigest key "proof_key" = .ok ()) (he : checkEntry key e = .ok ())
    (ht : t.get = Function.update s.get replayPath (some (.file
      (.replayLedger { ledger with entries := putEntry ledger.entries key e }) 0o600))) :
    LedgerShows { ledger with entries := putEntry ledger.entries key e } t where
  stored := by rw [ht, Function.update_self]
  project := h.project
  workspace := h.workspace
  entries := by
    intro x hx
    rcases mem_putEntry hx with hx | rfl
    · exact h.entries x hx
    · exact ⟨hkey, he⟩

/-- One entry moved, and everything off the ledger's path is as it was. -/
structure EntryMoved (ledger : ReplayLedger) (s t : FS) : Prop where
  shape : t.WellFormed
  entry : ∃ key e, EntryMove (ledger.entries.lookup key) (some e) ∧
    LedgerShows { ledger with entries := putEntry ledger.entries key e } t

/-- A call either has no effect or moves one entry, and then it returns. -/
abbrev CallEnds (ledger : ReplayLedger) (s : FS) : Except Failure ReplayEntry → FS → Prop :=
  Ends (fun _ t => t = s ∨ EntryMoved ledger s t) fun t => t = s

theorem storeEntry_ends (hwf : s.WellFormed) (h : LedgerShows ledger s) {key : String}
    {e : ReplayEntry} (hkey : replayDigest key "proof_key" = .ok ())
    (he : checkEntry key e = .ok ()) (hmove : EntryMove (ledger.entries.lookup key) (some e)) :
    Triple (· = s) (do
        storeLedger host (ledgerState host ledger)
          { ledger with entries := putEntry ledger.entries key e }
        return e)
      (CallEnds ledger s) fun _ => True := by
  obtain ⟨hdir, hclear⟩ := wellFormed_locals hwf h
  have hstore : Triple (· = s) _ _ fun _ => True := (h.store host hclear hdir
    { ledger with entries := putEntry ledger.entries key e }).crash fun _ _ => trivial
  refine (hstore.bind_returns fun _ => Triple.of_forall fun t ht => Triple.returns_ends ?_)
  have hfile : ¬ s.realDir replayPath := by
    rintro ⟨m, hm⟩
    rw [h.stored] at hm
    cases hm
  exact Or.inr ⟨hwf.update ht hdir (by simp [replayPath]) hfile, key, e, hmove,
    h.put hkey he ht⟩

theorem loadLedger_eq_ok {projectId workspaceId : Option String} {ledger' : ReplayLedger}
    {before : FileState} (hwf : s.WellFormed) (h : LedgerShows ledger s)
    (hload : loadLedger host projectId workspaceId s = .ok (ledger', before)) :
    ledger' = ledger ∧ before = ledgerState host ledger := by
  obtain ⟨-, hclear⟩ := wellFormed_locals hwf h
  unfold loadLedger at hload
  rw [h.observe hclear] at hload
  simp only [bind_ok_eq, ledgerState, regularState, ne_eq, not_true_eq_false, or_self, if_false,
    h.stored] at hload
  obtain ⟨-, -, hload⟩ := bind_eq_ok hload
  obtain ⟨-, -, hload⟩ := bind_eq_ok hload
  obtain ⟨-, -, hload⟩ := bind_eq_ok hload
  obtain ⟨-, -, hload⟩ := bind_eq_ok hload
  obtain ⟨-, -, hload⟩ := bind_eq_ok hload
  cases hload
  exact ⟨rfl, rfl⟩

theorem replayUuid_field {value field field' : String} {u : Unit}
    (h : replayUuid value field = .ok u) : replayUuid value field' = .ok u := by
  unfold replayUuid at h ⊢
  split at h
  · cases h
  · next parsed hparsed =>
    by_cases heq : parsed = value
    · rw [if_pos heq]
    · rw [if_neg heq] at h
      cases h

theorem reserveProof_ends (hwf : s.WellFormed) (h : LedgerShows ledger s) (r : Reservation) :
    Triple (· = s) (reserveProof host r) (CallEnds ledger s) fun _ => True := by
  refine Triple.lift_bind_ends rfl fun _ hid => ?_
  by_cases hwindow : r.proofExpiresAt < r.validatedAt
  · rw [if_pos hwindow]
    exact Triple.throw_ends rfl
  rw [if_neg hwindow]
  refine Triple.lift_bind_ends rfl fun key hkey => ?_
  refine Triple.inspect_bind_ends rfl fun (found, _) hload => ?_
  obtain ⟨rfl, rfl⟩ := loadLedger_eq_ok hwf h hload
  show Triple (· = s) (reserveEntry host r key found (ledgerState host found)) _ _
  unfold reserveEntry
  split
  · next existing _ =>
    by_cases hne : existing ≠ r.entry
    · rw [if_pos hne]
      exact Triple.throw_ends rfl
    · rw [if_neg hne]
      exact Triple.returns_ends (Or.inl rfl)
  · next hnone =>
    split
    · exact Triple.throw_ends rfl
    · apply storeEntry_ends hwf h
      · obtain ⟨-, -, hkey⟩ := bind_eq_ok hkey
        obtain ⟨-, -, hkey⟩ := bind_eq_ok hkey
        obtain ⟨-, -, hkey⟩ := bind_eq_ok hkey
        obtain ⟨-, -, hkey⟩ := bind_eq_ok hkey
        obtain rfl := Except.ok.inj hkey
        rw [replayDigest, if_pos (host.sha256_isDigest _)]
      · simp [checkEntry, Reservation.entry, replayUuid_field hid, hwindow]
      · rw [hnone]
        exact EntryMove.reserve _ rfl

theorem consumeProof_ends (hwf : s.WellFormed) (h : LedgerShows ledger s)
    (key transactionId : String) (consumedAt : Time) :
    Triple (· = s) (consumeProof host key transactionId consumedAt) (CallEnds ledger s)
      fun _ => True := by
  refine Triple.lift_bind_ends rfl fun _ hkey => Triple.lift_bind_ends rfl fun _ _ => ?_
  refine Triple.inspect_bind_ends rfl fun (found, _) hload => ?_
  obtain ⟨rfl, rfl⟩ := loadLedger_eq_ok hwf h hload
  show Triple (· = s)
    (consumeEntry host key transactionId consumedAt found (ledgerState host found)) _ _
  unfold consumeEntry
  split
  · exact Triple.throw_ends rfl
  · next entry hentry =>
    split
    · exact Triple.throw_ends rfl
    · split
      · exact Triple.returns_ends (Or.inl rfl)
      · next hstate =>
        have hreserved : entry.state = .reserved := by
          cases hs : entry.state with
          | reserved => rfl
          | consumed => exact absurd hs hstate
        apply storeEntry_ends hwf h hkey
        · have hmem : (key, entry) ∈ found.entries := by
            obtain ⟨before, after, hsplit, -⟩ := List.lookup_eq_some_iff.mp hentry
            simp [hsplit]
          have hcheck := (h.entries _ hmem).2
          unfold checkEntry at hcheck ⊢
          obtain ⟨⟨⟩, huuid, hcheck⟩ := bind_eq_ok hcheck
          simp only [hreserved] at hcheck
          split at hcheck
          · cases hcheck
          · next heq _ => cases heq
          · simpa [huuid] using hcheck
        · rw [hentry]
          exact EntryMove.consume entry consumedAt hreserved

variable (host) in
theorem replayCall_ends (hwf : s.WellFormed) (h : LedgerShows ledger s) (c : ReplayCall) :
    Triple (· = s) (c.run host) (CallEnds ledger s) fun _ => True := by
  cases c with
  | reserve request => exact reserveProof_ends hwf h request
  | consume key transactionId consumedAt =>
    exact consumeProof_ends hwf h key transactionId consumedAt

variable (host) in
/-- One call: the ledger stays well formed, and each entry stays or moves. -/
theorem replayCall_step (hwf : s.WellFormed) (h : LedgerShows ledger s) (c : ReplayCall) :
    ((c.run host).final s).WellFormed ∧ ∃ ledger', LedgerShows ledger' ((c.run host).final s) ∧
      ∀ key, EntryMoves (ledger.entries.lookup key) (ledger'.entries.lookup key) := by
  obtain ⟨-, hends⟩ := replayCall_ends host hwf h c s rfl
  have hsame : (c.run host).final s = s → ((c.run host).final s).WellFormed ∧
      ∃ ledger', LedgerShows ledger' ((c.run host).final s) ∧
        ∀ key, EntryMoves (ledger.entries.lookup key) (ledger'.entries.lookup key) := by
    intro hs
    rw [hs]
    exact ⟨hwf, ledger, h, fun _ => .refl⟩
  cases hout : (c.run host).out s with
  | error e =>
    rw [hout] at hends
    exact hsame hends
  | ok r =>
    rw [hout] at hends
    rcases hends with hs | ⟨hshape, key, e, hmove, hshows⟩
    · exact hsame hs
    · refine ⟨hshape, _, hshows, fun k => ?_⟩
      rw [lookup_putEntry]
      by_cases hk : k = key
      · rw [if_pos hk, hk]
        exact .single hmove
      · rw [if_neg hk]

theorem replayCall_raises (hwf : s.WellFormed) (h : LedgerShows ledger s) (c : ReplayCall)
    {e : Failure} (he : (c.run host).out s = .error e) : (c.run host).final s = s := by
  obtain ⟨-, hends⟩ := replayCall_ends host hwf h c s rfl
  rwa [he] at hends

end Step

/-! ### Runs -/

theorem replayRun_append (calls more : List ReplayCall) (s : FS) :
    replayRun host (calls ++ more) s = replayRun host more (replayRun host calls s) :=
  List.foldl_append ..

variable (host) in
theorem replayRun_ledger (hwf : s.WellFormed) (h : LedgerShows ledger s)
    (calls : List ReplayCall) :
    (replayRun host calls s).WellFormed ∧
      ∃ ledger', LedgerShows ledger' (replayRun host calls s) ∧
        ∀ key, EntryMoves (ledger.entries.lookup key) (ledger'.entries.lookup key) := by
  induction calls generalizing s ledger with
  | nil => exact ⟨hwf, ledger, h, fun _ => .refl⟩
  | cons c calls ih =>
    obtain ⟨hwf', ledger', h', hmoves⟩ := replayCall_step host hwf h c
    obtain ⟨hwf'', ledger'', h'', hrest⟩ := ih hwf' h'
    exact ⟨hwf'', ledger'', h'', fun key => (hmoves key).trans (hrest key)⟩

/-- What the ledger's own validator accepts. -/
theorem ledgerShows_of_load {projectId workspaceId : Option String} {state : FileState}
    (h : loadLedger host projectId workspaceId s = .ok (ledger, state)) :
    LedgerShows ledger s := by
  obtain ⟨observed, hobs, h⟩ := bind_eq_ok h
  split at h
  · cases h
  next hfile =>
  split at h
  · next found mode hget =>
    obtain ⟨⟨⟩, hproject, h⟩ := bind_eq_ok h
    obtain ⟨⟨⟩, hworkspace, h⟩ := bind_eq_ok h
    obtain ⟨-, -, h⟩ := bind_eq_ok h
    obtain ⟨-, -, h⟩ := bind_eq_ok h
    obtain ⟨⟨⟩, hentries, h⟩ := bind_eq_ok h
    cases h
    obtain ⟨-, -, hdesc⟩ := bind_eq_ok hobs
    rw [hget] at hdesc
    cases hdesc
    have hmode : mode = 0o600 := by simpa [regularState] using hfile
    refine ⟨by rw [hget, hmode], hproject, hworkspace, fun e he => ?_⟩
    obtain ⟨⟨⟩, hdigest, hentry⟩ := bind_eq_ok (forM_eq_ok hentries e he)
    exact ⟨hdigest, hentry⟩
  · cases h

/-- Reservations and consumptions in any order, from a registered ledger: between any two
moments of the run each entry only moves on and keeps its binding. -/
theorem ledger_monotone (hwf : s.WellFormed) {state : FileState}
    (h : loadLedger host none none s = .ok (ledger, state)) (calls more : List ReplayCall) :
    ∃ l f l' f', loadLedger host none none (replayRun host calls s) = .ok (l, f) ∧
      loadLedger host none none (replayRun host (calls ++ more) s) = .ok (l', f') ∧
      (∀ key, EntryMoves (l.entries.lookup key) (l'.entries.lookup key)) ∧
      (∀ key e, l.entries.lookup key = some e →
        ∃ e', l'.entries.lookup key = some e' ∧ e.Kept e') ∧
      ∀ (c : ReplayCall) e, (c.run host).out (replayRun host calls s) = .error e →
        ((c.run host).final (replayRun host calls s)).get replayPath =
          (replayRun host calls s).get replayPath := by
  obtain ⟨hwf', l, hl, -⟩ := replayRun_ledger host hwf (ledgerShows_of_load h) calls
  obtain ⟨hwf'', l', hl', hmoves⟩ := replayRun_ledger host hwf' hl more
  rw [← replayRun_append] at hwf'' hl'
  have hload : ∀ {u m}, DirTree.WellFormed u → LedgerShows m u →
      loadLedger host none none u = .ok (m, ledgerState host m) := fun hu hm =>
    hm.load (wellFormed_locals hu hm).2 (by simp) (by simp)
  refine ⟨l, _, l', _, hload hwf' hl, hload hwf'' hl', hmoves, ?_, ?_⟩
  · intro key e he
    have hkey := hmoves key
    rw [he] at hkey
    exact EntryMoves.kept hkey
  · intro c e hraise
    rw [replayCall_raises hwf' hl c hraise]

def sampleEmptyLedger : ReplayLedger := ⟨sampleTask, sampleWorkspace, []⟩

/-- A project with an empty ledger and nothing else. -/
def sampleRegistered : FS :=
  ⟨[([], .dir 0o755), (controlDir, .dir 0o755), (localDir, .dir 0o755),
    (replayPath, .file (.replayLedger sampleEmptyLedger) 0o600)]⟩

def sampleReservation : Reservation :=
  ⟨sampleTask, sampleWorkspace, sampleTask, sampleDigest 1, sampleDigest 2, sampleTransaction,
    5, 9, 7, false⟩

def sampleReservedKey : String :=
  ((proofKey sampleHost sampleReservation.approvalId sampleReservation.approvalChallenge
    sampleReservation.routeDecisionDigest sampleWorkspace).toOption).getD ""

/-- The state of the sample proof in the ledger of a store. -/
def sampleProofState (s : FS) : Option ReplayState :=
  ((loadLedger sampleHost none none s).toOption.bind
    (·.1.entries.lookup sampleReservedKey)).map (·.state)

/-- The sample proof is reserved, consumed and reserved again in vain. -/
theorem ledger_monotone_consumed :
    sampleProofState (replayRun sampleHost [.reserve sampleReservation] sampleRegistered) =
        some .reserved ∧
      sampleProofState (replayRun sampleHost [.reserve sampleReservation,
        .consume sampleReservedKey sampleTransaction 8, .reserve sampleReservation]
          sampleRegistered) = some .consumed ∧
      ∃ l f l' f', loadLedger sampleHost none none
          (replayRun sampleHost [.reserve sampleReservation] sampleRegistered) = .ok (l, f) ∧
        loadLedger sampleHost none none (replayRun sampleHost [.reserve sampleReservation,
          .consume sampleReservedKey sampleTransaction 8, .reserve sampleReservation]
            sampleRegistered) = .ok (l', f') ∧
        (∀ key, EntryMoves (l.entries.lookup key) (l'.entries.lookup key)) ∧
        ∀ key e, l.entries.lookup key = some e →
          ∃ e', l'.entries.lookup key = some e' ∧ e.Kept e' := by
  have hwf : sampleRegistered.WellFormed := by decide
  have hload : loadLedger sampleHost none none sampleRegistered =
      .ok (sampleEmptyLedger, ledgerState sampleHost sampleEmptyLedger) := by decide
  obtain ⟨l, f, l', f', h, h', hmoves, hkept, -⟩ :=
    ledger_monotone hwf hload [.reserve sampleReservation]
      [.consume sampleReservedKey sampleTransaction 8, .reserve sampleReservation]
  exact ⟨by decide, by decide, l, f, l', f', h, h', hmoves, hkept⟩

end AgentStack.Runtime
