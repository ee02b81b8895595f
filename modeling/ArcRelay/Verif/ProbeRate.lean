import ArcRelay.Lib.Run
import ArcRelay.Lib.Window
import ArcRelay.World

/-!
# The rate limit of discovery probes

`admit_discovery_probe` counts the probes of each source in windows of ten seconds. What
it decides about a source depends on the probes of that source only: entries that are
pruned are of windows that have passed, and a window that has passed is as good as none.
-/

namespace ArcRelay

/-- The length of a window, in nanoseconds. -/
def probeWindow : Nat := 10000000000

/-- The probes admitted in a window. -/
def probeLimit : Nat := 4

/-- The window an entry counts in. -/
def ProbeRate.window (rate : ProbeRate) : Window := ⟨rate.windowStarted, rate.attempts.toNat⟩

/-- The entries of all sources. -/
abbrev ProbeRates := Table (IpAddr × ProbeRate) IpAddr Prod.fst

/-- The window of a source. -/
def windowOf (rates : ProbeRates) (source : IpAddr) : Option Window :=
  (rates.find? source).map fun entry => entry.2.window

theorem windowOf_upsert (rates : ProbeRates) (entry : IpAddr × ProbeRate) (source : IpAddr) :
    windowOf (rates.upsert entry) source =
      if entry.1 = source then some entry.2.window else windowOf rates source := by
  rw [windowOf, Table.find?_upsert]
  split <;> rfl

namespace World

/-- `admit_discovery_probe` without the pruning step. -/
def admitUnpruned (world : World) (source : IpAddr) : Except NetworkError Unit × World :=
  let rate := match world.probeRates.find? source with
    | none => ⟨world.instant, 0⟩
    | some entry =>
      if world.instant - entry.2.windowStarted ≥ 10000000000 then ⟨world.instant, 0⟩ else entry.2
  if rate.attempts ≥ 4 then
    (.error (.busy "discovery probe source is rate limited"),
      { world with probeRates := world.probeRates.upsert (source, rate) })
  else
    (.ok (), { world with
      probeRates := world.probeRates.upsert (source, { rate with attempts := rate.attempts + 1 }) })

/-- What a limiter does that goes on with given entries: it decides as the window of the source
says, and stores that window. -/
structure Limits (world : World) (rates : ProbeRates) (source : IpAddr)
    (outcome : Except NetworkError Unit × World) : Prop where
  decision : outcome.1 =
    if (Window.allow probeWindow probeLimit (windowOf rates source) world.instant).1 then .ok ()
    else .error (.busy "discovery probe source is rate limited")
  stored : windowOf outcome.2.probeRates source =
    some (Window.allow probeWindow probeLimit (windowOf rates source) world.instant).2
  others : ∀ other, source ≠ other → windowOf outcome.2.probeRates other = windowOf rates other
  /-- The entries: old ones, or one with an admissible counter. -/
  entries : ∀ entry ∈ outcome.2.probeRates.rows,
    entry ∈ rates.rows ∨ entry.2.attempts.toNat ≤ probeLimit

/-- The rate of a source in a new window, or the stored one. -/
theorem rate_cases (world : World) (rates : ProbeRates) (source : IpAddr) (rate : ProbeRate)
    (found : rate = match rates.find? source with
      | none => ⟨world.instant, 0⟩
      | some entry =>
        if world.instant - entry.2.windowStarted ≥ 10000000000 then ⟨world.instant, 0⟩
        else entry.2) :
    rate.window = Window.current probeWindow (windowOf rates source) world.instant ∧
      ((source, rate) ∈ rates.rows ∨ rate.attempts = 0) := by
  subst found
  cases found : rates.find? source with
  | none =>
    rw [windowOf, found]
    exact ⟨rfl, Or.inr rfl⟩
  | some entry =>
    rw [windowOf, found]
    obtain ⟨member, own⟩ := Table.find?_eq_some.mp found
    by_cases passed : world.instant - entry.2.windowStarted ≥ 10000000000
    · simp only [passed, ↓reduceIte]
      exact ⟨(if_pos passed).symm, Or.inr trivial⟩
    · simp only [passed, ↓reduceIte]
      refine ⟨(if_neg passed).symm, Or.inl ?_⟩
      rw [← own]
      exact member

/-- A limiter with a rate of the source. -/
theorem limits_of_rate {world : World} {rates : ProbeRates} {source : IpAddr} {rate : ProbeRate}
    (current : rate.window = Window.current probeWindow (windowOf rates source) world.instant)
    (known : (source, rate) ∈ rates.rows ∨ rate.attempts = 0) :
    Limits world rates source (if rate.attempts ≥ 4 then
        (.error (.busy "discovery probe source is rate limited"),
          { world with probeRates := rates.upsert (source, rate) })
      else (.ok (), { world with
        probeRates := rates.upsert (source, { rate with attempts := rate.attempts + 1 }) })) := by
  have reached : rate.attempts ≥ 4 ↔ rate.window.count ≥ probeLimit := UInt8.le_iff_toNat_le
  have allow : Window.allow probeWindow probeLimit (windowOf rates source) world.instant =
      if rate.attempts ≥ 4 then (false, rate.window)
      else (true, ⟨rate.windowStarted, rate.attempts.toNat + 1⟩) := by
    rw [Window.allow, ← current]
    simp only [reached]
    rfl
  by_cases full : rate.attempts ≥ 4
  · simp only [full, ↓reduceIte] at allow ⊢
    refine ⟨by rw [allow]; rfl, by rw [allow, windowOf_upsert, if_pos rfl], fun other different =>
      by rw [windowOf_upsert, if_neg different], fun entry member => ?_⟩
    rcases Table.mem_upsert.mp member with rfl | ⟨before, -⟩
    · exact Or.inl (known.resolve_right fun zero => by simp [zero] at full)
    · exact Or.inl before
  · have small : rate.attempts.toNat < 4 := not_le.mp fun many => full (reached.mpr many)
    have counted : (rate.attempts + 1).toNat = rate.attempts.toNat + 1 := by
      rw [UInt8.toNat_add, UInt8.toNat_one]
      omega
    simp only [full, ↓reduceIte] at allow ⊢
    refine ⟨by rw [allow]; rfl, ?_, fun other different => by rw [windowOf_upsert,
      if_neg different], fun entry member => ?_⟩
    · rw [allow, windowOf_upsert, if_pos rfl, ProbeRate.window, counted]
    · rcases Table.mem_upsert.mp member with rfl | ⟨before, -⟩
      · exact Or.inr (by simp only [probeLimit, counted]; omega)
      · exact Or.inl before

/-- `admit_discovery_probe` goes on with the retained entries. -/
theorem limits_admitProbe (world : World) (source : IpAddr) :
    Limits world world.retainedRates source (world.admitProbe source) := by
  obtain ⟨current, known⟩ := rate_cases world world.retainedRates source _ rfl
  exact limits_of_rate current known

theorem limits_admitUnpruned (world : World) (source : IpAddr) :
    Limits world world.probeRates source (world.admitUnpruned source) := by
  obtain ⟨current, known⟩ := rate_cases world world.probeRates source _ rfl
  exact limits_of_rate current known

theorem agree_retainedRates (world : World) (source : IpAddr) :
    Window.Agree probeWindow world.instant (windowOf world.retainedRates source)
      (windowOf world.probeRates source) := by
  unfold retainedRates
  split
  · unfold windowOf
    rw [Table.find?_deleteWhere]
    cases world.probeRates.find? source with
    | none => exact Or.inl rfl
    | some entry =>
      by_cases recent : world.instant - entry.2.windowStarted < 60000000000
      · exact Or.inl (by simp [Option.filter, recent])
      · -- a minute is longer than a window
        refine Or.inr ⟨?_, ?_⟩
        · simp [Window.Idle, Option.filter, recent]
        · rintro _ ⟨⟩
          simp only [ProbeRate.window, probeWindow]
          omega
  · exact Or.inl rfl

end World

/-! ## Calls one after the other -/

/-- A probe that was admitted. -/
structure AdmittedProbe where
  source : IpAddr
  windowStarted : Nat
  time : Nat

/-- The state of the runtime, the decisions of the calls so far, and the admitted probes. -/
structure Probing where
  world : World
  decisions : List (Except NetworkError Unit)
  admitted : List AdmittedProbe

/-- A runtime that has just been bound. -/
def Probing.start (database : Database) : Probing := ⟨.fresh database, [], []⟩

/-- A limiter is called at a time, for a source. -/
def Probing.call (allow : World → IpAddr → Except NetworkError Unit × World) (probing : Probing)
    (call : Nat × IpAddr) : Probing :=
  let outcome := allow { probing.world with instant := call.1 } call.2
  { world := outcome.2
    decisions := probing.decisions ++ [outcome.1]
    admitted := probing.admitted ++ match outcome.1, outcome.2.probeRates.find? call.2 with
      | .ok _, some entry => [⟨call.2, entry.2.windowStarted, call.1⟩]
      | _, _ => [] }

/-- What the probes of one source add up to by themselves. -/
def tallyOf (calls : List (Nat × IpAddr)) (source : IpAddr) : Window.Tally :=
  ((calls.filter fun call => call.2 = source).map Prod.fst).foldl
    (Window.Tally.event probeWindow probeLimit) .empty

theorem tallyOf_concat (calls : List (Nat × IpAddr)) (call : Nat × IpAddr) (source : IpAddr) :
    tallyOf (calls ++ [call]) source =
      if call.2 = source then (tallyOf calls source).event probeWindow probeLimit call.1
      else tallyOf calls source := by
  unfold tallyOf
  by_cases own : call.2 = source <;> simp [List.filter_append, own]

variable {calls : List (Nat × IpAddr)}

/-- The probes of a source, as they are admitted, keep the bounds of the windows. -/
theorem kept_tallyOf (ordered : calls.Pairwise fun first second => first.1 ≤ second.1)
    (source : IpAddr) {now : Nat} (past : ∀ call ∈ calls, call.1 ≤ now) :
    (tallyOf calls source).Kept probeWindow probeLimit now := by
  induction calls using List.reverseRecOn generalizing now with
  | nil => exact Window.Tally.kept_empty now
  | append_singleton calls call ih =>
    obtain ⟨earlier, -, before⟩ := List.pairwise_append.mp ordered
    have kept := ih earlier fun other member => before other member call (by simp)
    have later : call.1 ≤ now := past call (by simp)
    rw [tallyOf_concat]
    split
    · exact (kept.event (by decide)).later later
    · exact kept.later later

/-- A limiter goes on with entries that agree with the stored ones. -/
def Faithful (allow : World → IpAddr → Except NetworkError Unit × World) : Prop :=
  ∀ (world : World) (source : IpAddr), ∃ rates : ProbeRates,
    (∀ other, Window.Agree probeWindow world.instant (windowOf rates other)
      (windowOf world.probeRates other)) ∧
      (∀ entry ∈ rates.rows, entry ∈ world.probeRates.rows) ∧
        world.Limits rates source (allow world source)

/-- `admit_discovery_probe` is such a limiter. -/
theorem faithful_admitProbe : Faithful World.admitProbe := by
  intro world source
  refine ⟨world.retainedRates, world.agree_retainedRates, fun entry member => ?_,
    world.limits_admitProbe source⟩
  unfold World.retainedRates at member
  split at member
  · exact (Table.mem_deleteWhere.mp member).1
  · exact member

theorem faithful_admitUnpruned : Faithful World.admitUnpruned :=
  fun world source => ⟨world.probeRates, fun _ => Or.inl rfl, fun _ => id,
    world.limits_admitUnpruned source⟩

/-- After some calls of a limiter every source is where its own probes have brought it. -/
structure Tracks (calls : List (Nat × IpAddr)) (probing : Probing) (now : Nat) : Prop where
  windows : ∀ source, Window.Agree probeWindow now (windowOf probing.world.probeRates source)
    (tallyOf calls source).state
  counters : ∀ entry ∈ probing.world.probeRates.rows, entry.2.attempts.toNat ≤ probeLimit
  admitted : ∀ source, (probing.admitted.filter fun probe => probe.source = source).map
    (fun probe => (probe.windowStarted, probe.time)) = (tallyOf calls source).admitted

variable {allow : World → IpAddr → Except NetworkError Unit × World}

/-- One call of a limiter. -/
theorem tracks_call (faithful : Faithful allow) {probing : Probing} {call : Nat × IpAddr}
    (tracks : Tracks calls probing call.1) :
    Tracks (calls ++ [call]) (probing.call allow call) call.1 ∧
      (probing.call allow call).decisions = probing.decisions ++
        [if (Window.allow probeWindow probeLimit (tallyOf calls call.2).state call.1).1 then .ok ()
          else .error (.busy "discovery probe source is rate limited")] := by
  obtain ⟨rates, agree, subset, limits⟩ := faithful { probing.world with instant := call.1 } call.2
  have windows : ∀ source, Window.Agree probeWindow call.1 (windowOf rates source)
      (tallyOf calls source).state := fun source => (agree source).trans (tracks.windows source)
  have same : Window.allow probeWindow probeLimit (windowOf rates call.2) call.1 =
      Window.allow probeWindow probeLimit (tallyOf calls call.2).state call.1 :=
    (windows call.2).allow
  obtain ⟨decision, stored, others, entries⟩ := limits
  simp only [same] at decision stored
  refine ⟨⟨fun source => ?_, fun entry member => ?_, fun source => ?_⟩, ?_⟩
  · rw [tallyOf_concat]
    split
    · rename_i own
      subst own
      exact Or.inl stored
    · rename_i other
      rw [Probing.call, others source other]
      exact windows source
  · rcases entries entry member with before | admissible
    · exact tracks.counters entry (subset entry before)
    · exact admissible
  · have logged : (probing.call allow call).admitted = probing.admitted ++
        if (Window.allow probeWindow probeLimit (tallyOf calls call.2).state call.1).1 then
          [⟨call.2, (Window.allow probeWindow probeLimit (tallyOf calls call.2).state
            call.1).2.started, call.1⟩]
        else [] := by
      obtain ⟨entry, found, window⟩ := Option.map_eq_some_iff.mp stored
      simp only [Probing.call, decision, found, ← window]
      cases (Window.allow probeWindow probeLimit (tallyOf calls call.2).state call.1).1 <;> rfl
    rw [logged, List.filter_append, List.map_append, tracks.admitted source, tallyOf_concat]
    by_cases own : call.2 = source
    · subst own
      simp only [↓reduceIte, Window.Tally.event]
      split <;> simp
    · simp only [own, ↓reduceIte]
      split <;> simp [own]
  · rw [Probing.call, decision]

/-- Every run of a limiter is where the probes of each source by themselves bring it. -/
theorem tracks_run (faithful : Faithful allow) (database : Database)
    (ordered : calls.Pairwise fun first second => first.1 ≤ second.1) {now : Nat}
    (past : ∀ call ∈ calls, call.1 ≤ now) :
    Tracks calls (Run.exec (Probing.call allow) (.start database) calls) now := by
  induction calls using List.reverseRecOn generalizing now with
  | nil =>
    refine ⟨fun source => Or.inl rfl, fun entry member => ?_, fun source => rfl⟩
    cases member
  | append_singleton calls call ih =>
    obtain ⟨earlier, -, before⟩ := List.pairwise_append.mp ordered
    have tracks := ih earlier fun other member => before other member call (by simp)
    have stepped := (tracks_call faithful tracks).1
    rw [Run.exec_concat]
    exact { stepped with
      windows := fun source => (stepped.windows source).later (past call (by simp)) }

/-- Two limiters decide alike. -/
theorem decisions_run {allow' : World → IpAddr → Except NetworkError Unit × World}
    (faithful : Faithful allow) (faithful' : Faithful allow') (database : Database)
    (ordered : calls.Pairwise fun first second => first.1 ≤ second.1) :
    (Run.exec (Probing.call allow) (.start database) calls).decisions =
      (Run.exec (Probing.call allow') (.start database) calls).decisions := by
  induction calls using List.reverseRecOn with
  | nil => rfl
  | append_singleton calls call ih =>
    obtain ⟨earlier, -, before⟩ := List.pairwise_append.mp ordered
    have past : ∀ other ∈ calls, other.1 ≤ call.1 := fun other member =>
      before other member call (by simp)
    rw [Run.exec_concat, Run.exec_concat,
      (tracks_call faithful (tracks_run faithful database earlier past)).2,
      (tracks_call faithful' (tracks_run faithful' database earlier past)).2, ih earlier]

/-- For every sequence of calls at times in order, pruning makes no difference to the decisions; of
the probes of one source at most four are admitted in a window, at most eight in any ten seconds,
and no counter exceeds four. -/
theorem probe_rate_limit_exact (database : Database)
    (ordered : calls.Pairwise fun first second => first.1 ≤ second.1) :
    (Run.exec (Probing.call World.admitProbe) (.start database) calls).decisions =
      (Run.exec (Probing.call World.admitUnpruned) (.start database) calls).decisions ∧
    (∀ source started, (Run.exec (Probing.call World.admitProbe) (.start database)
      calls).admitted.countP (fun probe => probe.source = source ∧ probe.windowStarted = started) ≤
        4) ∧
    (∀ source from', (Run.exec (Probing.call World.admitProbe) (.start database)
      calls).admitted.countP (fun probe => probe.source = source ∧ from' ≤ probe.time ∧
        probe.time < from' + 10000000000) ≤ 8) ∧
    ∀ entry ∈ (Run.exec (Probing.call World.admitProbe) (.start database)
      calls).world.probeRates.rows, entry.2.attempts ≤ 4 := by
  have past : ∀ call ∈ calls, call.1 ≤ (calls.map Prod.fst).sum := fun call member =>
    List.le_sum_of_mem (List.mem_map_of_mem member)
  have tracks := tracks_run faithful_admitProbe database ordered past
  have counts : ∀ source (condition : Nat × Nat → Bool), (Run.exec (Probing.call World.admitProbe)
      (.start database) calls).admitted.countP (fun probe => probe.source = source ∧
        condition (probe.windowStarted, probe.time)) =
          (tallyOf calls source).admitted.countP condition := by
    intro source condition
    rw [← tracks.admitted source, List.countP_map, List.countP_filter]
    refine List.countP_congr fun probe _ => ?_
    simp [and_comm]
  refine ⟨decisions_run faithful_admitProbe faithful_admitUnpruned database ordered,
    fun source started => ?_, fun source from' => ?_,
    fun entry member => UInt8.le_iff_toNat_le.mpr (tracks.counters entry member)⟩
  · have full := (kept_tallyOf ordered source past).full started
    rw [Window.Tally.inWindow, ← counts] at full
    exact (List.countP_congr fun probe _ => by simp).trans_le full
  · have interval := (kept_tallyOf ordered source past).interval from'
    rw [← counts] at interval
    refine (List.countP_congr fun probe _ => ?_).trans_le interval
    rw [decide_eq_true_iff]
    exact (decide_eq_true_iff.trans (and_congr_right fun _ => decide_eq_true_iff)).symm

/-- Six probes of one source at once, and one ten seconds later. -/
theorem probe_rate_limit_exact_burst :
    (Run.exec (Probing.call World.admitProbe) (.start .empty)
      (List.replicate 6 (0, .v4 1) ++ [(10000000000, .v4 1)])).admitted.countP
        (fun probe => probe.source = .v4 1 ∧ 0 ≤ probe.time ∧ probe.time < 0 + 10000000000) ≤ 8 :=
  (probe_rate_limit_exact .empty (by decide)).2.2.1 (.v4 1) 0

end ArcRelay
