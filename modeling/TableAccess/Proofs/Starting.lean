import TableAccess.Proofs.Contexts
import TableAccess.Proofs.Documents
import TableAccess.Proofs.HandOffs

/-!
# Running with a checked configuration

The check looks at every value by itself. Two things it lets through are found out later: a name
with a null character, when the thread is started, and a time that the clock cannot tell, when
somebody waits for it.

## The model

* `zeroByte?_of_notMem`, `zeroByte?_of_first` — where the zero byte of a name is.
* `HandsOff` — what hand-offs to a context come to for their callers.
* `Config.Runs` — what comes of running with a configuration.
-/

namespace TableAccess

/-! ## Zero bytes -/

/-- The bytes of an array are listed from some position on, after those that were listed. -/
theorem byteArray_toList_loop (b : ByteArray) (i : Nat) (listed : List UInt8) :
    ByteArray.toList.loop b i listed = listed.reverse ++ b.data.toList.drop i := by
  fun_induction ByteArray.toList.loop b i listed with
  | case1 i listed inside ih =>
    have next : b.data.toList.drop i = b.get! i :: b.data.toList.drop (i + 1) := by
      rw [List.drop_eq_getElem_cons (show i < b.data.toList.length by simpa using inside)]
      have byte : b.get! i = b.data[i]! := rfl
      rw [byte, getElem!_pos b.data i inside, Array.getElem_toList]
    rw [ih, next, List.reverse_cons, List.append_assoc]
    rfl
  | case2 i listed outside =>
    have none : b.data.toList.drop i = [] :=
      List.drop_eq_nil_of_le (by simpa using Nat.le_of_not_lt outside)
    rw [none, List.append_nil]

theorem byteArray_toList (b : ByteArray) : b.toList = b.data.toList :=
  byteArray_toList_loop b 0 []

/-- The bytes of a text are those of its characters. -/
theorem toUTF8_toList (s : String) : s.toUTF8.toList = s.toList.flatMap String.utf8EncodeChar := by
  rw [String.toUTF8_eq_toByteArray, ← String.utf8Encode_toList, byteArray_toList, List.utf8Encode,
    List.toList_data_toByteArray]

/-- The null character is the only one with a zero byte. -/
theorem zero_mem_utf8EncodeChar {c : Char} : 0 ∈ String.utf8EncodeChar c ↔ c = '\x00' := by
  constructor
  · intro zero
    by_contra other
    have positive : 0 < c.val.toNat := by
      by_contra none
      refine other (Char.ext (UInt32.toNat_inj.1 ?_))
      exact Nat.eq_zero_of_not_pos none
    have byte : ∀ n : Nat, 0 < n → n < 256 → (0 : UInt8) ≠ UInt8.ofNat n := by
      intro n pos small same
      have value := congrArg UInt8.toNat same
      rw [UInt8.toNat_ofNat', Nat.mod_eq_of_lt small] at value
      exact Nat.ne_of_lt pos value
    rw [String.utf8EncodeChar] at zero
    split_ifs at zero <;> simp only [List.mem_cons, List.not_mem_nil, or_false] at zero
    · exact byte _ (by omega) (by omega) zero
    · obtain zero | zero := zero <;> exact byte _ (by omega) (by omega) zero
    · obtain zero | zero | zero := zero <;> exact byte _ (by omega) (by omega) zero
    · obtain zero | zero | zero | zero := zero <;> exact byte _ (by omega) (by omega) zero
  · rintro rfl
    decide

namespace Context

theorem zeroByte?_of_notMem {s : String} (none : '\x00' ∉ s.toList) : zeroByte? s = .none := by
  have nowhere : 0 ∉ s.toUTF8.toList := by
    rw [toUTF8_toList, List.mem_flatMap]
    rintro ⟨c, mem, zero⟩
    rw [zero_mem_utf8EncodeChar.1 zero] at mem
    exact none mem
  rw [zeroByte?, if_neg nowhere]

/-- The zero byte stands after the bytes of what comes before the first null character. -/
theorem zeroByte?_of_first {before after : String} (first : '\x00' ∉ before.toList) :
    zeroByte? (before ++ "\x00" ++ after) = some before.utf8ByteSize := by
  have bytes : (before ++ "\x00" ++ after).toUTF8.toList =
      before.toUTF8.toList ++ 0 :: after.toUTF8.toList := by
    simp only [toUTF8_toList, String.toList_append, List.flatMap_append]
    rw [List.append_assoc]
    rfl
  have clean : ∀ b ∈ before.toUTF8.toList, decide (b ≠ 0) = true := by
    rw [toUTF8_toList]
    intro b mem
    obtain ⟨c, there, byte⟩ := List.mem_flatMap.1 mem
    refine decide_eq_true fun zero => first ?_
    rw [zero] at byte
    rwa [zero_mem_utf8EncodeChar.1 byte] at there
  have size : before.toUTF8.toList.length = before.utf8ByteSize := by
    rw [byteArray_toList, String.toUTF8_eq_toByteArray, Array.length_toList]
    exact String.size_toByteArray
  have zero : 0 ∈ (before ++ "\x00" ++ after).toUTF8.toList := by
    rw [bytes]
    simp
  rw [zeroByte?, if_pos zero, bytes, List.takeWhile_append_of_pos clean, ← size]
  simp

variable {τ : Type} {config : Config}

/-- A context whose queue finds room starts if its name has no null character. -/
theorem spawn_of_clean (room : Room.Fits .message config.queueCapacity)
    (clean : '\x00' ∉ config.threadName.toList) :
    spawn config = .ok (start config : Context τ) :=
  spawn_of_named room (zeroByte?_of_notMem clean)

/-- With a null character in the name it panics, and tells where the first one is. -/
theorem spawn_of_first {before after : String} (room : Room.Fits .message config.queueCapacity)
    (name : config.threadName = before ++ "\x00" ++ after) (first : '\x00' ∉ before.toList) :
    (spawn config : Except Panic (Context τ)) =
      .error (zeroByteInName config.threadName before.utf8ByteSize) := by
  have zero : zeroByte? config.threadName = some before.utf8ByteSize := by
    rw [name, zeroByte?_of_first first]
  rw [spawn, if_neg (lt_queueLimit room), Room.check_eq_ok_iff.2 room, zero]
  rfl

/-! ## Times stay what they are -/

variable {context context' : Context τ}

theorem Change.timeout (h : context.Change context') : context'.timeout = context.timeout := by
  cases h with
  | accept ok => rw [(accept_eq_ok ok).2]
  | next =>
    rcases next_cases context with ⟨e, -⟩ | ⟨_, _, -, -, e⟩ | ⟨_, -, -, e⟩ | ⟨-, -, -, e⟩ |
      ⟨-, -, e⟩ <;> simp [e, exit]
  | stop | join | finish => rfl

/-- A context waits for hand-offs as long as it was told to in the beginning. -/
theorem Becomes.timeout (h : context.Becomes context') : context'.timeout = context.timeout :=
  h.keeps (P := fun context' => context'.timeout = context.timeout) rfl
    fun change before => change.timeout.trans before

end Context

variable {μ α : Type}

/-- What is done to contexts changes one of them, or starts one. -/
theorem ContextStep.since {w : World μ} {deeds : List Deed} {contexts : List (Context Ticket)}
    {tickets : Nat} (h : ContextStep w deeds contexts tickets) :
    Context.Since w.contexts contexts := by
  cases h with
  | spawn spawned =>
    rw [Context.spawn_eq_ok spawned]
    exact .append _ _
  | @accept c context context' hc accepts =>
    refine .modify c fun found there => ?_
    cases hc.symm.trans there
    exact .accept accepts
  | stop c => exact .modify c fun context _ => .stop context
  | join c => exact .modify c fun context _ => .join context
  | @next c _ _ => exact .modify c fun context _ => .next context
  | @finish c _ _ _ _ => exact .modify c fun context _ => .finish context

/-- From one moment to a later one contexts are changed step by step, and others are started. -/
theorem Moment.Goes.contextsSince {m m' : Moment μ} (later : m.Goes m') :
    Context.Since m.world.contexts m'.world.contexts := by
  refine later.keeps (P := fun m' => Context.Since m.world.contexts m'.world.contexts) (.refl _) ?_
  intro m₁ m₂ step before
  cases step with
  | contexts h => exact before.trans h.since
  | aside | tables | trees => exact before

/-! ## Hand-offs -/

/-- What a hand-off to a context, with the context's own time, comes to for its caller. -/
structure HandsOff (c : ContextId) (timeout : Duration) (w : World μ) : Prop where
  /-- On the context's own thread the work is done by the caller, who gets an answer whenever it
  ends, also when it ends with a panic. -/
  here : w.thread = .toolkit c → ∀ {α : Type} (work : Act μ α) (R : World μ → World μ → Prop)
    (r : Except Panic (Except Unavailable α)) (w' : World μ),
    (handOff c none work).Ends R w r w' → ∃ outcome, r = .ok outcome
  /-- On another thread, with a time that the clock can tell, the caller gets an answer at once, or
  it waits for at most this time and gets one then. -/
  elsewhere : w.thread ≠ .toolkit c → timeout.FitsClock w.clock → ∀ {α : Type} (work : Act μ α),
    (∃ outcome w', handOff c none work w = .done (.ok outcome) w') ∨
      ∃ k w' next, handOff c none work w = .calling c k timeout work w' next ∧
        ∀ result later, ∃ outcome w'', next result later = .done (.ok outcome) w''
  /-- With a time that the clock cannot tell, the caller gets an answer at once if its task is
  refused, and panics if it is accepted. -/
  overruns : w.thread ≠ .toolkit c → ¬timeout.FitsClock w.clock → ∀ {α : Type} (work : Act μ α),
    (∃ outcome w', handOff c none work w = .done (.ok outcome) w') ∨
      ∃ k task w', handOff c none work w =
        .leaving c k task w' fun later => .done (.error deadlineOverflow) later

/-- Work that is done at once is answered for, whatever it comes to. -/
theorem runInline_ends {name : String} {work : Act μ α} {R : World μ → World μ → Prop}
    {w w' : World μ} {r : Except Panic (Except Unavailable α)}
    (h : (runInline name work).Ends R w r w') : ∃ outcome, r = .ok outcome := by
  obtain ⟨result, w₁, -, rest⟩ | ⟨e, rfl, first⟩ := h.bind
  · cases result with
    | ok a => exact ⟨_, rest.pure.1⟩
    | error p => exact ⟨_, rest.tell.pure.1⟩
  · obtain ⟨_, panic, -⟩ := first.attempt
    cases panic

/-- What is refused is answered at once. -/
theorem handOff_done_or_accepted (bound : Option Duration) {c : ContextId} {w : World μ}
    (off : w.thread ≠ .toolkit c) {context : Context Ticket} (hc : w.contexts[c]? = some context)
    (work : Act μ α) :
    (∃ outcome w', handOff c bound work w = .done (.ok outcome) w') ∨
      ∃ accepted, context.accept w.tickets = .ok accepted := by
  cases h : context.accept w.tickets with
  | ok accepted => exact .inr ⟨accepted, rfl⟩
  | error refusal =>
    have refused := handOff_of_refused bound off work hc h
    cases refusal with
    | stopped => exact .inl ⟨_, _, refused⟩
    | full => exact .inl ⟨_, _, refused⟩

/-- Every context hands off so, with its own time. -/
theorem handsOff {c : ContextId} {w : World μ} {context : Context Ticket}
    (hc : w.contexts[c]? = some context) : HandsOff c context.timeout w where
  here own α work R r w' h := by
    have inline : (runInline context.name work).Ends R (w.tell (.span .handOff)) r w' :=
      ⟨by rw [← handOff_of_here none work own hc]; exact h.ends⟩
    exact runInline_ends inline
  elsewhere off fits α work := by
    refine (handOff_done_or_accepted none off hc work).imp_right fun ⟨accepted, h⟩ => ?_
    obtain ⟨next, calls, answered, late⟩ := handOff_calls none off work hc h fits
    refine ⟨_, _, next, calls, fun result later => ?_⟩
    cases result with
    | some result => exact ⟨_, _, answered result later⟩
    | none =>
      obtain ⟨e, told⟩ := late later
      exact ⟨_, _, told⟩
  overruns off late α work :=
    (handOff_done_or_accepted none off hc work).imp_right fun ⟨_, h⟩ =>
      ⟨_, _, _, handOff_overruns none off work hc h late⟩

/-! ## Running -/

/-- What comes of running with a configuration. -/
structure Config.Runs (config : Config) : Prop where
  /-- A context starts with it if its name has no null character. -/
  starts : '\x00' ∉ config.threadName.toList →
    Context.spawn config = .ok (Context.start config : Context Ticket)
  /-- The caller gets it, or is told what the system said that did not start the thread. -/
  launches : '\x00' ∉ config.threadName.toList → ∀ refusal : Option String,
    (Context.launch refusal config : Except Panic (Except Unavailable (Context Ticket))) =
      .ok (match refusal with
        | none => .ok (Context.start config)
        | some source => .error (.spawnFailed config.threadName source))
  /-- If it has one, the caller panics, and is told the position of the first. -/
  panics : ∀ before after : String, config.threadName = before ++ "\x00" ++ after →
    '\x00' ∉ before.toList → (Context.spawn config : Except Panic (Context Ticket)) =
      .error (Context.zeroByteInName config.threadName before.utf8ByteSize)
  /-- It is so whatever the system would say. -/
  panicsFirst : ∀ panic : Panic, (Context.spawn config : Except Panic (Context Ticket)) = .error panic →
    ∀ refusal : Option String,
      (Context.launch refusal config : Except Panic (Except Unavailable (Context Ticket))) = .error panic
  /-- A context that has just started takes tasks. -/
  takes : ∀ k : Ticket, ∃ accepted, (Context.start config).accept k = .ok accepted
  /-- At every later moment hand-offs to it wait for as long as the configuration says. -/
  handsOff : ∀ {μ : Type} {m m' : Moment μ} {c : ContextId},
    m.world.contexts[c]? = some (Context.start config) → m.Goes m' →
    HandsOff c config.handOffTimeout m'.world
  /-- A configuration that was read has a time that the clock can tell until half of its own is over. -/
  read : ∀ source, ofDocument source = .ok config → ∀ now : Instant,
    now / 1000000000 < Duration.clockSeconds / 2 → config.handOffTimeout.FitsClock now

/-- Times that can be written down can be told by the clock, in the first half of its own. -/
theorem Config.Document.fitsClock_of_representable {d : Duration}
    (h : Representable (.handOffTimeout d)) {now : Instant}
    (early : now / 1000000000 < Duration.clockSeconds / 2) : d.FitsClock now := by
  obtain ⟨ms, bounded, rfl⟩ := h
  have sum : ∀ now : Nat, now / 1000000000 < 0x8000000000000000 / 2 →
      (now + ms * 1000000) / 1000000000 < 0x8000000000000000 := by
    intro now early
    omega
  exact sum now early

/-- What the system says is asked for last. -/
theorem Context.launch_of_spawn {τ : Type} {config : Config} {context : Context τ}
    (h : spawn config = .ok context) (refusal : Option String) :
    launch refusal config = .ok (match refusal with
      | none => .ok context
      | some source => .error (.spawnFailed config.threadName source)) := by
  rw [launch, h]
  cases refusal with
  | none => rfl
  | some source => rfl

/-- A configuration that passes the check, and whose queue finds room, starts a context unless a null
character stands in its name. Hand-offs to this context come back with an answer, at once or after
the time of the configuration, unless the clock cannot tell this time; for a configuration that was
read it can. In each of the two cases that the check lets through the caller panics. -/
theorem checked_configurations_run {config : Config} (checked : config.validate = .ok config)
    (room : Room.Fits .message config.queueCapacity) : config.Runs where
  starts clean := Context.spawn_of_clean room clean
  launches clean refusal := Context.launch_of_spawn (Context.spawn_of_clean room clean) refusal
  panics _ _ name first := Context.spawn_of_first room name first
  panicsFirst panic panics refusal := by
    rw [Context.launch, panics]
    rfl
  takes k := by
    have usable := (Config.validate_eq_ok_iff.1 checked).2 .queueCapacity
    have positive : config.queueCapacity ≠ 0 := by simpa [Config.get, Setting.usable] using usable
    have empty : (Context.start config : Context Ticket).HasRoom :=
      .inl (Nat.pos_of_ne_zero positive)
    have running : (Context.start config : Context Ticket).running = true := rfl
    have accepts := Context.accept_of_running running k
    rwa [if_pos empty] at accepts
  handsOff there later := by
    obtain ⟨context, hc, becomes⟩ := later.contextsSince.stays there
    have handsOff := TableAccess.handsOff hc
    rwa [becomes.timeout] at handsOff
  read source read now early :=
    Config.Document.fitsClock_of_representable
      (Config.representable_of_ofDocument read .handOffTimeout) early

/-- The name has a character of two bytes before the null character. -/
theorem checked_configurations_run_named :
    Config.validate ⟨.ofMillis 1, 1, "ä\x00"⟩ = .ok ⟨.ofMillis 1, 1, "ä\x00"⟩ ∧
      Room.Fits .message 1 ∧
      (Context.spawn ⟨.ofMillis 1, 1, "ä\x00"⟩ : Except Panic (Context Ticket)) =
        .error (Context.zeroByteInName "ä\x00" 2) := by
  have checked : Config.validate ⟨.ofMillis 1, 1, "ä\x00"⟩ = .ok ⟨.ofMillis 1, 1, "ä\x00"⟩ := by
    decide
  have room : Room.Fits .message 1 := by decide
  exact ⟨checked, room, (checked_configurations_run checked room).panics "ä" "" rfl (by decide)⟩

/-- Two configurations pass the check, and neither can be run with: a name with a null character
makes the caller panic when the context is to start, and a time of `2 ^ 63` seconds when the context
has accepted a task. -/
theorem checked_configurations_panic :
    Config.build [.threadName "a\x00b"] = .ok ⟨.ofMillis 500, 256, "a\x00b"⟩ ∧
      (Context.spawn ⟨.ofMillis 500, 256, "a\x00b"⟩ : Except Panic (Context Ticket)) =
        .error ⟨"thread name may not contain interior null bytes: NulError(1, [97, 0, 98])"⟩ ∧
      Config.build [.handOffTimeout (.ofSeconds 0x8000000000000000)] =
        .ok ⟨.ofSeconds 0x8000000000000000, 256, "axbridge-toolkit"⟩ ∧
      ∃ context : Context Ticket,
        Context.spawn ⟨.ofSeconds 0x8000000000000000, 256, "axbridge-toolkit"⟩ = .ok context ∧
        ∃ task w', handOff 0 none (pure () : Act Unit Unit)
            { World.empty () with thread := .client 0, contexts := [context] } =
          .leaving 0 0 task w' fun later => .done (.error deadlineOverflow) later := by
  have told : Context.zeroByteInName "a\x00b" 1 =
      ⟨"thread name may not contain interior null bytes: NulError(1, [97, 0, 98])"⟩ := by
    decide +kernel
  refine ⟨by decide, ?_, by decide,
    .start ⟨.ofSeconds 0x8000000000000000, 256, "axbridge-toolkit"⟩, ?_, ?_⟩
  · rw [← told]
    exact @Context.spawn_of_first Ticket ⟨.ofMillis 500, 256, "a\x00b"⟩ "a" "b" (by decide) rfl
      (by decide)
  · exact Context.spawn_of_clean (by decide) (by decide)
  · exact ⟨_, _, handOff_overruns none (by simp) _ rfl rfl (by decide)⟩

end TableAccess
