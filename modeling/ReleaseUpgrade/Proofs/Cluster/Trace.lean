import ReleaseUpgrade.Phases.Context

/-!
# Traces of programs

What a program does depends on the answers of the cluster.  A trace is a list of calls with their
answers, and nothing is asked of the answers: every one of them may be a failure, and two answers
need not agree with each other.  So what holds of all traces holds whatever happens to the cluster
while the program runs.

* `Program.Yields p t a`   with the answers in `t`, the calls of `p` are those in `t` and it ends
                           with `a`;
* `Action.Yields`          the same for an action, which ends with a value or an error;
* `Step.Yields`            the same for a step, with the status before and after it;
* `Program.run_yields`     whatever answers the calls, a run has a trace.

For each way to build a program there is one lemma that says what its traces are.
-/

namespace ReleaseUpgrade

/-- a call with the answer to it -/
structure Exchange where
  call : Call
  answer : Except UpgradeError call.Answer

/-- calls with their answers, in their order -/
abbrev Trace := List Exchange

namespace Exchange

/-- the objects of a kind have been listed -/
abbrev listed (k : Kind) (ns : Option String) (objects : List k.Object) : Exchange :=
  ⟨.list k ns, .ok objects⟩

/-- an object has been looked up -/
abbrev got (k : Kind) (ns name : String) (object : Option k.Object) : Exchange :=
  ⟨.get k ns name, .ok object⟩

/-- the latest release of a name has been looked up -/
abbrev found (name : String) (release : Option HelmRelease) : Exchange :=
  ⟨.latestRelease name, .ok release⟩

/-- an object has been created -/
abbrev created (k : Kind) (object : k.Object) : Exchange := ⟨.create k object, .ok ()⟩

/-- an object has been replaced -/
abbrev replaced (k : Kind) (object : k.Object) : Exchange := ⟨.replace k object, .ok ()⟩

theorem got_inj {k : Kind} {ns name ns' name' : String} {object object' : Option k.Object}
    (h : got k ns name object = got k ns' name' object') :
    ns = ns' ∧ name = name' ∧ object = object' := by
  obtain ⟨_, rfl, rfl⟩ := Call.get.inj (congrArg Exchange.call h)
  cases h
  exact ⟨rfl, rfl, rfl⟩

end Exchange

namespace Program
variable {α β : Type}

/-- with the answers in the trace, the program makes the calls in it and ends with a value -/
def Yields : Program α → Trace → α → Prop
  | .done a, t, b => t = [] ∧ b = a
  | .call c next, t, b => ∃ answer t', t = ⟨c, answer⟩ :: t' ∧ (next answer).Yields t' b

theorem yields_bind (p : Program α) (f : α → Program β) (t : Trace) (b : β) :
    (p >>= f).Yields t b ↔ ∃ a t₁ t₂, t = t₁ ++ t₂ ∧ p.Yields t₁ a ∧ (f a).Yields t₂ b := by
  induction p generalizing t with
  | done a =>
    constructor
    · intro h
      exact ⟨a, [], t, rfl, ⟨rfl, rfl⟩, h⟩
    · rintro ⟨_, _, _, rfl, ⟨rfl, rfl⟩, h⟩
      exact h
  | call c next ih =>
    constructor
    · rintro ⟨answer, t', rfl, h⟩
      obtain ⟨a, t₁, t₂, rfl, h₁, h₂⟩ := (ih answer t').mp h
      exact ⟨a, ⟨c, answer⟩ :: t₁, t₂, rfl, ⟨answer, t₁, rfl, h₁⟩, h₂⟩
    · rintro ⟨a, _, t₂, rfl, ⟨answer, t₁, rfl, h₁⟩, h₂⟩
      exact ⟨answer, t₁ ++ t₂, rfl, (ih answer _).mpr ⟨a, t₁, t₂, rfl, h₁, h₂⟩⟩

/-- the answers decide how far a program goes and how it ends -/
theorem Yields.front_unique {p : Program α} {t t' u u' : Trace} {a a' : α} (h : p.Yields t a)
    (h' : p.Yields t' a') (heq : t ++ u = t' ++ u') : t = t' ∧ a = a' ∧ u = u' := by
  induction p generalizing t t' with
  | done b =>
    obtain ⟨rfl, rfl⟩ := h
    obtain ⟨rfl, rfl⟩ := h'
    exact ⟨rfl, rfl, heq⟩
  | call c next ih =>
    obtain ⟨answer, t, rfl, h⟩ := h
    obtain ⟨answer', t', rfl, h'⟩ := h'
    obtain ⟨hhead, htail⟩ := List.cons.inj heq
    cases hhead
    obtain ⟨rfl, hrest⟩ := ih answer h h' htail
    exact ⟨rfl, hrest⟩

/-- a run has a trace, whatever answers the calls -/
theorem run_yields {σ : Type} (handler : Handler σ) (p : Program α) (s : σ) :
    ∃ t, p.Yields t (p.run handler s).1 := by
  induction p generalizing s with
  | done a => exact ⟨[], rfl, rfl⟩
  | call c next ih =>
    obtain ⟨t, h⟩ := ih (handler c s).1 (handler c s).2
    exact ⟨⟨c, (handler c s).1⟩ :: t, _, t, rfl, h⟩

end Program

namespace Action
variable {α β : Type}

/-- with the answers in the trace, the action makes the calls in it and ends with a result -/
def Yields (a : Action α) (t : Trace) (r : Except UpgradeError α) : Prop :=
  Program.Yields a.run t r

section
variable (t : Trace)

theorem yields_pure (v : α) (r : Except UpgradeError α) :
    (pure v : Action α).Yields t r ↔ t = [] ∧ r = .ok v := Iff.rfl

theorem yields_throw (e : UpgradeError) (r : Except UpgradeError α) :
    (throw e : Action α).Yields t r ↔ t = [] ∧ r = .error e := Iff.rfl

theorem yields_ofExcept (e r : Except UpgradeError α) :
    (ofExcept e).Yields t r ↔ t = [] ∧ r = e := Iff.rfl

theorem yields_perform (c : Call) (r : Except UpgradeError c.Answer) :
    (perform c).Yields t r ↔ t = [⟨c, r⟩] := by
  constructor
  · rintro ⟨_, _, rfl, rfl, rfl⟩
    rfl
  · rintro rfl
    exact ⟨r, [], rfl, rfl, rfl⟩

theorem yields_create (k : Kind) (o : k.Object) (r : Except UpgradeError Unit) :
    (create k o).Yields t r ↔ t = [⟨.create k o, r⟩] := yields_perform t (.create k o) r

theorem yields_replace (k : Kind) (o : k.Object) (r : Except UpgradeError Unit) :
    (replace k o).Yields t r ↔ t = [⟨.replace k o, r⟩] := yields_perform t (.replace k o) r

theorem yields_latestRelease (name : String) (r : Except UpgradeError (Option HelmRelease)) :
    (latestRelease name).Yields t r ↔ t = [⟨.latestRelease name, r⟩] :=
  yields_perform t (.latestRelease name) r

theorem yields_publish (plan : UpgradePlan) (event : Event) (r : Except UpgradeError Unit) :
    (publish plan event).Yields t r ↔
      ∃ answer, t = [⟨.publishEvent plan event, answer⟩] ∧ r = .ok () := by
  constructor
  · rintro ⟨answer, _, rfl, rfl, rfl⟩
    exact ⟨answer, rfl, rfl⟩
  · rintro ⟨answer, rfl, rfl⟩
    exact ⟨answer, [], rfl, rfl, rfl⟩

theorem yields_wait (milliseconds : Nat) (r : Except UpgradeError Unit) :
    (wait milliseconds).Yields t r ↔ ∃ answer, t = [⟨.wait milliseconds, answer⟩] ∧ r = .ok () := by
  constructor
  · rintro ⟨answer, _, rfl, rfl, rfl⟩
    exact ⟨answer, rfl, rfl⟩
  · rintro ⟨answer, rfl, rfl⟩
    exact ⟨answer, [], rfl, rfl, rfl⟩

theorem yields_bind (a : Action α) (f : α → Action β) (r : Except UpgradeError β) :
    (a >>= f).Yields t r ↔
      (∃ e, a.Yields t (.error e) ∧ r = .error e) ∨
        ∃ v t₁ t₂, t = t₁ ++ t₂ ∧ a.Yields t₁ (.ok v) ∧ (f v).Yields t₂ r := by
  show Program.Yields (a.run >>= fun x => _) t r ↔ _
  rw [Program.yields_bind]
  constructor
  · rintro ⟨x, t₁, t₂, rfl, h₁, h₂⟩
    cases x with
    | error e =>
      obtain ⟨rfl, rfl⟩ := h₂
      exact .inl ⟨e, by rwa [List.append_nil], rfl⟩
    | ok v => exact .inr ⟨v, t₁, t₂, rfl, h₁, h₂⟩
  · rintro (⟨e, h, rfl⟩ | ⟨v, t₁, t₂, rfl, h₁, h₂⟩)
    · exact ⟨.error e, t, [], (List.append_nil t).symm, h, rfl, rfl⟩
    · exact ⟨.ok v, t₁, t₂, rfl, h₁, h₂⟩

/-- a call comes first; its failure is the end -/
theorem yields_bind_perform (c : Call) (f : c.Answer → Action β) (r : Except UpgradeError β) :
    (perform c >>= f).Yields t r ↔
      (∃ e, t = [⟨c, .error e⟩] ∧ r = .error e) ∨
        ∃ v u, t = ⟨c, .ok v⟩ :: u ∧ (f v).Yields u r := by
  simp only [yields_bind, yields_perform]
  constructor
  · rintro (h | ⟨v, _, u, rfl, rfl, h⟩)
    · exact .inl h
    · exact .inr ⟨v, u, rfl, h⟩
  · rintro (h | ⟨v, u, rfl, h⟩)
    · exact .inl h
    · exact .inr ⟨v, [_], u, rfl, rfl, h⟩

theorem yields_bind_list (k : Kind) (ns : Option String) (f : List k.Object → Action β)
    (r : Except UpgradeError β) :
    (list k ns >>= f).Yields t r ↔
      (∃ e, t = [⟨.list k ns, .error e⟩] ∧ r = .error e) ∨
        ∃ objects u, t = .listed k ns objects :: u ∧ (f objects).Yields u r :=
  yields_bind_perform t (.list k ns) f r

theorem yields_bind_get (k : Kind) (ns name : String) (f : Option k.Object → Action β)
    (r : Except UpgradeError β) :
    (get k ns name >>= f).Yields t r ↔
      (∃ e, t = [⟨.get k ns name, .error e⟩] ∧ r = .error e) ∨
        ∃ found u, t = .got k ns name found :: u ∧ (f found).Yields u r :=
  yields_bind_perform t (.get k ns name) f r

theorem yields_recover (a : Action α) (f : UpgradeError → Action α) (r : Except UpgradeError α) :
    (a.recover f).Yields t r ↔
      (∃ v, a.Yields t (.ok v) ∧ r = .ok v) ∨
        ∃ e t₁ t₂, t = t₁ ++ t₂ ∧ a.Yields t₁ (.error e) ∧ (f e).Yields t₂ r := by
  show Program.Yields (a.run >>= fun x => _) t r ↔ _
  rw [Program.yields_bind]
  constructor
  · rintro ⟨x, t₁, t₂, rfl, h₁, h₂⟩
    cases x with
    | error e => exact .inr ⟨e, t₁, t₂, rfl, h₁, h₂⟩
    | ok v =>
      obtain ⟨rfl, rfl⟩ := h₂
      exact .inl ⟨v, by rwa [List.append_nil], rfl⟩
  · rintro (⟨v, h, rfl⟩ | ⟨e, t₁, t₂, rfl, h₁, h₂⟩)
    · exact ⟨.ok v, t, [], (List.append_nil t).symm, h, rfl, rfl⟩
    · exact ⟨.error e, t₁, t₂, rfl, h₁, h₂⟩

end

end Action

namespace Step
variable {α β : Type}

/-- with the answers in the trace, the step makes the calls in it, ends with a result and leaves a
status -/
def Yields (s : Step α) (before : Status) (t : Trace) (r : Except UpgradeError α)
    (after : Status) : Prop := (s.outcome before).Yields t (r, after)

section
variable (before : Status) (t : Trace) (after : Status)

theorem yields_pure (v : α) (r : Except UpgradeError α) :
    (pure v : Step α).Yields before t r after ↔ t = [] ∧ r = .ok v ∧ after = before := by
  show t = [] ∧ (r, after) = (.ok v, before) ↔ _
  rw [Prod.mk.injEq]

theorem yields_ofExcept (e r : Except UpgradeError α) :
    (ofExcept e).Yields before t r after ↔ t = [] ∧ r = e ∧ after = before := by
  show t = [] ∧ (r, after) = (e, before) ↔ _
  rw [Prod.mk.injEq]

theorem yields_lift (a : Action α) (r : Except UpgradeError α) :
    (liftM a : Step α).Yields before t r after ↔ a.Yields t r ∧ after = before := by
  show Program.Yields (a.run >>= fun x => _) t _ ↔ _
  rw [Program.yields_bind]
  constructor
  · rintro ⟨x, t₁, t₂, rfl, h, rfl, hx⟩
    obtain ⟨rfl, rfl⟩ := Prod.mk.inj hx
    exact ⟨by rwa [List.append_nil], rfl⟩
  · rintro ⟨h, rfl⟩
    exact ⟨r, t, [], (List.append_nil t).symm, h, rfl, rfl⟩

theorem yields_bind (s : Step α) (f : α → Step β) (r : Except UpgradeError β) :
    (s >>= f).Yields before t r after ↔
      (∃ e, s.Yields before t (.error e) after ∧ r = .error e) ∨
        ∃ v between t₁ t₂, t = t₁ ++ t₂ ∧ s.Yields before t₁ (.ok v) between ∧
          (f v).Yields between t₂ r after := by
  show Program.Yields (s.outcome before >>= fun x => _) t _ ↔ _
  rw [Program.yields_bind]
  constructor
  · rintro ⟨⟨x, between⟩, t₁, t₂, rfl, h₁, h₂⟩
    cases x with
    | error e =>
      obtain ⟨rfl, hx⟩ := h₂
      obtain ⟨rfl, rfl⟩ := Prod.mk.inj hx
      exact .inl ⟨e, by rwa [List.append_nil], rfl⟩
    | ok v => exact .inr ⟨v, between, t₁, t₂, rfl, h₁, h₂⟩
  · rintro (⟨e, h, rfl⟩ | ⟨v, between, t₁, t₂, rfl, h₁, h₂⟩)
    · exact ⟨(.error e, after), t, [], (List.append_nil t).symm, h, rfl, rfl⟩
    · exact ⟨(.ok v, between), t₁, t₂, rfl, h₁, h₂⟩

/-- after a step whose trace is known, the step that follows it has the rest -/
theorem yields_bind_iff {s : Step α} {f : α → Step β} {before between after : Status} {v : α}
    {t u : Trace} {r : Except UpgradeError β} (h : s.Yields before t (.ok v) between) :
    (s >>= f).Yields before (t ++ u) r after ↔ (f v).Yields between u r after := by
  rw [yields_bind]
  constructor
  · rintro (⟨e, he, _⟩ | ⟨v', between', t', u', heq, hs, hf⟩)
    · obtain ⟨_, hv, _⟩ := h.front_unique he (List.append_nil _).symm
      cases hv
    · obtain ⟨rfl, hv, rfl⟩ := h.front_unique hs heq
      cases hv
      exact hf
  · exact fun hf => .inr ⟨v, between, t, u, rfl, h, hf⟩

/-- the answers decide how a step ends -/
theorem Yields.unique {s : Step α} {before after after' : Status} {t : Trace}
    {r r' : Except UpgradeError α} (h : s.Yields before t r after)
    (h' : s.Yields before t r' after') : r = r' ∧ after = after' :=
  Prod.mk.inj (h.front_unique h' rfl (u := [])).2.1

theorem yields_bind_status (f : Status → Step β) (r : Except UpgradeError β) :
    (status >>= f).Yields before t r after ↔ (f before).Yields before t r after := Iff.rfl

theorem yields_bind_modify (g : Status → Status) (f : Unit → Step β)
    (r : Except UpgradeError β) :
    (modify g >>= f).Yields before t r after ↔ (f ()).Yields (g before) t r after := Iff.rfl

theorem yields_bind_ofExcept (x : Except UpgradeError α) (f : α → Step β)
    (r : Except UpgradeError β) :
    (ofExcept x >>= f).Yields before t r after ↔
      (∃ e, x = .error e ∧ t = [] ∧ r = .error e ∧ after = before) ∨
        ∃ v, x = .ok v ∧ (f v).Yields before t r after := by
  simp only [yields_bind, yields_ofExcept]
  constructor
  · rintro (⟨e, ⟨rfl, he, rfl⟩, rfl⟩ | ⟨v, _, _, u, rfl, ⟨rfl, he, rfl⟩, h⟩)
    · exact .inl ⟨e, he.symm, rfl, rfl, rfl⟩
    · exact .inr ⟨v, he.symm, h⟩
  · rintro (⟨e, rfl, rfl, rfl, rfl⟩ | ⟨v, rfl, h⟩)
    · exact .inl ⟨e, ⟨rfl, rfl, rfl⟩, rfl⟩
    · exact .inr ⟨v, before, [], t, rfl, ⟨rfl, rfl, rfl⟩, h⟩

/-- an action comes first; its failure is the end -/
theorem yields_bind_lift (a : Action α) (f : α → Step β) (r : Except UpgradeError β) :
    (liftM a >>= f : Step β).Yields before t r after ↔
      (∃ e, a.Yields t (.error e) ∧ r = .error e ∧ after = before) ∨
        ∃ v u w, t = u ++ w ∧ a.Yields u (.ok v) ∧ (f v).Yields before w r after := by
  simp only [yields_bind, yields_lift]
  constructor
  · rintro (⟨e, ⟨h, rfl⟩, rfl⟩ | ⟨v, _, u, w, rfl, ⟨h, rfl⟩, hf⟩)
    · exact .inl ⟨e, h, rfl, rfl⟩
    · exact .inr ⟨v, u, w, rfl, h, hf⟩
  · rintro (⟨e, h, rfl, rfl⟩ | ⟨v, u, w, rfl, h, hf⟩)
    · exact .inl ⟨e, ⟨h, rfl⟩, rfl⟩
    · exact .inr ⟨v, before, u, w, rfl, ⟨h, rfl⟩, hf⟩

theorem yields_bind_perform (c : Call) (f : c.Answer → Step β) (r : Except UpgradeError β) :
    (liftM (Action.perform c) >>= f : Step β).Yields before t r after ↔
      (∃ e, t = [⟨c, .error e⟩] ∧ r = .error e ∧ after = before) ∨
        ∃ v u, t = ⟨c, .ok v⟩ :: u ∧ (f v).Yields before u r after := by
  simp only [yields_bind_lift, Action.yields_perform]
  constructor
  · rintro (h | ⟨v, _, u, rfl, rfl, h⟩)
    · exact .inl h
    · exact .inr ⟨v, u, rfl, h⟩
  · rintro (h | ⟨v, u, rfl, h⟩)
    · exact .inl h
    · exact .inr ⟨v, [_], u, rfl, rfl, h⟩

theorem yields_bind_list (k : Kind) (ns : Option String) (f : List k.Object → Step β)
    (r : Except UpgradeError β) :
    (liftM (Action.list k ns) >>= f : Step β).Yields before t r after ↔
      (∃ e, t = [⟨.list k ns, .error e⟩] ∧ r = .error e ∧ after = before) ∨
        ∃ objects u, t = .listed k ns objects :: u ∧ (f objects).Yields before u r after :=
  yields_bind_perform before t after (.list k ns) f r

theorem yields_bind_get (k : Kind) (ns name : String) (f : Option k.Object → Step β)
    (r : Except UpgradeError β) :
    (liftM (Action.get k ns name) >>= f : Step β).Yields before t r after ↔
      (∃ e, t = [⟨.get k ns name, .error e⟩] ∧ r = .error e ∧ after = before) ∨
        ∃ found u, t = .got k ns name found :: u ∧ (f found).Yields before u r after :=
  yields_bind_perform before t after (.get k ns name) f r

end

end Step

namespace Context
variable (ctx : Context) (t : Trace)

theorem yields_bind_setCondition {β : Type} (type : String) (reason : Reason) (message : String)
    (f : Unit → Step β) (before after : Status) (r : Except UpgradeError β) :
    (ctx.setCondition type reason message >>= f).Yields before t r after ↔
      (f ()).Yields (before.setCondition ctx.now type reason message) t r after := Iff.rfl

/-- an object is created and an event tells of it, or creating it fails -/
theorem yields_create (k : Kind) (o : k.Object) (r : Except UpgradeError Unit) :
    (ctx.create k o).Yields t r ↔
      (∃ e, t = [⟨.create k o, .error e⟩] ∧ r = .error e) ∨
        ∃ event answer, t = [.created k o, ⟨.publishEvent ctx.plan event, answer⟩] ∧
          event = ⟨.normal, k.text ++ "Created", k.text ++ " created: " ++ (k.metadata o).nsOr ++
            "/" ++ (k.metadata o).name.getD ""⟩ ∧ r = .ok () := by
  unfold create publish
  simp only [Action.yields_bind, Action.yields_create, Action.yields_publish]
  constructor
  · rintro (⟨e, rfl, rfl⟩ | ⟨_, _, _, rfl, rfl, answer, rfl, rfl⟩)
    · exact .inl ⟨e, rfl, rfl⟩
    · exact .inr ⟨_, answer, rfl, rfl, rfl⟩
  · rintro (⟨e, rfl, rfl⟩ | ⟨_, answer, rfl, rfl, rfl⟩)
    · exact .inl ⟨e, rfl, rfl⟩
    · exact .inr ⟨(), _, _, rfl, rfl, answer, rfl, rfl⟩

theorem namingSuffix_eq_ok {status : Status} {suffix : String}
    (h : namingSuffix status = .ok suffix) : status.namingSuffix = some suffix := by
  unfold namingSuffix at h
  split at h
  · rename_i hsome
    rw [hsome, Except.ok.inj h]
  · cases h

end Context

end ReleaseUpgrade
