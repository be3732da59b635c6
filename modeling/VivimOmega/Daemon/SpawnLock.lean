import VivimOmega.Library.Transition

/-! The lock directory under which one process at a time spawns the daemon of a vault. -/

namespace VivimOmega.Daemon

open Library

/-- The lock directory: whose `mkdirSync` made it, which the code does not see, and what its pid file says. -/
structure LockDir where
  maker : ℕ
  pid : Option ℕ
  deriving DecidableEq

/-- The next step of a process in `acquireLock` and `releaseLock`. -/
inductive Place
  | outside
  | made
  | refused
  | found (pid : ℕ)
  | stale (pid : ℕ)
  | removed
  | remade
  | holding
  | crashed
  deriving DecidableEq

/-- Neither at work in the lock directory nor dead. -/
def Place.Away (a : Place) : Prop := a ≠ .made ∧ a ≠ .remade ∧ a ≠ .holding ∧ a ≠ .crashed

def Place.isStale : Place → Bool
  | .stale _ => true
  | _ => false

structure VaultDir where
  lock : Option LockDir
  place : ℕ → Place

inductive LockEvent
  | step (p : ℕ)
  | crash (p : ℕ)

namespace VaultDir

variable (w : VaultDir) (p : ℕ)

def put (a : Place) : VaultDir := { w with place := Function.update w.place p a }

def pidAlive : Bool := w.place p ≠ .crashed

/-- `mkdirSync(lock)`, which throws when the directory is there. -/
def mkdir (a thrown : Place) : VaultDir :=
  match w.lock with
  | none => { w with lock := some ⟨p, none⟩ }.put p a
  | some _ => w.put p thrown

/-- `writeFileSync(join(lock, "pid"), …)`, which throws when the directory is gone. -/
def writePid (thrown : Place) : VaultDir :=
  match w.lock with
  | none => w.put p thrown
  | some d => { w with lock := some { d with pid := some p } }.put p .holding

def rmLock (a : Place) : VaultDir := { w with lock := none }.put p a

def advance : Option VaultDir :=
  match w.place p with
  | .outside => some (w.mkdir p .made .refused)
  | .made => some (w.writePid p .refused)
  | .refused =>
    match w.lock.bind LockDir.pid with
    | none => some (w.put p .outside)
    | some q => some (w.put p (.found q))
  | .found q => some (w.put p (if w.pidAlive q then .outside else .stale q))
  | .stale _ => some (w.rmLock p .removed)
  | .removed => some (w.mkdir p .remade .outside)
  | .remade => some (w.writePid p .outside)
  | .holding => some (w.rmLock p .outside)
  | .crashed => none

def react : LockEvent → Option VaultDir
  | .step p => w.advance p
  | .crash p => if w.pidAlive p then some (w.put p .crashed) else none

end VaultDir

/-- Any number of processes on one vault directory. -/
def spawnLock : System VaultDir LockEvent where
  init w := w.lock = none ∧ ∀ p, w.place p = .outside
  step := VaultDir.react

namespace VaultDir

variable {w w' : VaultDir} {p q : ℕ}

def Exclusive (w : VaultDir) : Prop :=
  ∀ p q, w.place p = .holding → w.place q = .holding → p = q

/-- A process that removes the lock holds it, or its holder is dead. -/
def MayRemove (w : VaultDir) : LockEvent → Prop
  | .crash _ => True
  | .step p => w.place p = .holding ∨ (w.place p).isStale = true → ∀ d ∈ w.lock,
      (w.place p = .holding ∧ d.maker = p) ∨ w.place d.maker = .crashed

/-- A lock whose maker crashed is taken over by a process that runs `acquireLock`. -/
def TakenOver (w : VaultDir) : Prop :=
  ∀ d ∈ w.lock, w.place d.maker = .crashed → ∀ p, w.place p = .outside →
    ∃ w', spawnLock.Later (fun _ e => e = .step p) w w' ∧ w'.place p = .holding

/-- The law of the lock at one step of a run. -/
def Lawful (x : VaultDir × LockEvent × VaultDir) : Prop :=
  x.1.Exclusive ∧ x.1.TakenOver ∧ x.1.MayRemove x.2.1 ∧ x.2.2.Exclusive ∧ x.2.2.TakenOver

/-- A take-over removes the lock only while the pid file still names a dead process, and nobody crashes between its
`mkdirSync` and its write of the pid. -/
def Undisturbed (w : VaultDir) : LockEvent → Prop
  | .step p => (w.place p).isStale = true → ∀ d ∈ w.lock, ∃ r ∈ d.pid, w.pidAlive r = false
  | .crash p => w.place p ≠ .made ∧ w.place p ≠ .remade

instance decidableUndisturbed (w : VaultDir) (e : LockEvent) : Decidable (w.Undisturbed e) := by
  cases e <;> unfold Undisturbed <;> infer_instance

@[simp] lemma put_lock (a : Place) : (w.put p a).lock = w.lock := rfl

@[simp] lemma put_place_self (a : Place) : (w.put p a).place p = a := Function.update_self _ _ _

@[simp] lemma put_place_of_ne (a : Place) (h : q ≠ p) : (w.put p a).place q = w.place q :=
  Function.update_of_ne h _ _

/-- The lock directory is that of the process between its `mkdirSync` and its `releaseLock`, or of a crashed holder. -/
structure Owned (w : VaultDir) : Prop where
  making : ∀ p, w.place p = .made ∨ w.place p = .remade → w.lock = some ⟨p, none⟩
  holding : ∀ p, w.place p = .holding → w.lock = some ⟨p, some p⟩
  maker : ∀ d ∈ w.lock, (d.pid = none ∧ (w.place d.maker = .made ∨ w.place d.maker = .remade)) ∨
    (d.pid = some d.maker ∧ (w.place d.maker = .holding ∨ w.place d.maker = .crashed))

lemma owned_start (h : spawnLock.init w) : Owned w where
  making p hp := by simp [h.2 p] at hp
  holding p hp := by simp [h.2 p] at hp
  maker d hd := by simp [h.1] at hd

lemma Owned.exclusive (h : Owned w) : w.Exclusive := by
  intro p q hp hq
  have hsame := (h.holding p hp).symm.trans (h.holding q hq)
  simp only [Option.some.injEq, LockDir.mk.injEq] at hsame
  exact hsame.1

lemma Owned.maker_ne (h : Owned w) {d : LockDir} (hd : d ∈ w.lock) (haway : (w.place p).Away) : d.maker ≠ p := by
  rintro rfl
  obtain ⟨hmade, hremade, hholding, hcrashed⟩ := haway
  obtain ⟨_, h | h⟩ | ⟨_, h | h⟩ := h.maker d hd
  · exact hmade h
  · exact hremade h
  · exact hholding h
  · exact hcrashed h

/-- A process away from the lock directory moves on, and leaves the directory alone. -/
lemma Owned.move (h : Owned w) {a : Place} (hfrom : (w.place p).Away) (hto : a.Away) : Owned (w.put p a) := by
  obtain ⟨hmade, hremade, hholding, hcrashed⟩ := hto
  refine ⟨fun q hq => ?_, fun q hq => ?_, fun d hd => ?_⟩
  · by_cases hqp : q = p
    · subst hqp
      simp [hmade, hremade] at hq
    · rw [put_place_of_ne a hqp] at hq
      exact h.making q hq
  · by_cases hqp : q = p
    · subst hqp
      simp [hholding] at hq
    · rw [put_place_of_ne a hqp] at hq
      exact h.holding q hq
  · rw [put_place_of_ne a (h.maker_ne hd hfrom)]
    exact h.maker d hd

lemma Owned.crash (h : Owned w) (hmade : w.place p ≠ .made) (hremade : w.place p ≠ .remade) :
    Owned (w.put p .crashed) := by
  refine ⟨fun q hq => ?_, fun q hq => ?_, fun d hd => ?_⟩
  · by_cases hqp : q = p
    · subst hqp
      simp at hq
    · rw [put_place_of_ne _ hqp] at hq
      exact h.making q hq
  · by_cases hqp : q = p
    · subst hqp
      simp at hq
    · rw [put_place_of_ne _ hqp] at hq
      exact h.holding q hq
  · by_cases hmaker : d.maker = p
    · right
      obtain ⟨_, hmaking | hmaking⟩ | ⟨hpid, _⟩ := h.maker d hd
      · exact absurd (hmaker ▸ hmaking) hmade
      · exact absurd (hmaker ▸ hmaking) hremade
      · rw [hmaker, put_place_self]
        exact ⟨hmaker ▸ hpid, .inr rfl⟩
    · rw [put_place_of_ne _ hmaker]
      exact h.maker d hd

lemma Owned.mkdir (h : Owned w) {a thrown : Place} (hfrom : (w.place p).Away) (hto : a = .made ∨ a = .remade)
    (hthrown : thrown.Away) : Owned (w.mkdir p a thrown) := by
  rw [VaultDir.mkdir]
  cases hlock : w.lock with
  | some d => exact h.move hfrom hthrown
  | none =>
    refine ⟨fun q hq => ?_, fun q hq => ?_, fun d hd => ?_⟩
    · by_cases hqp : q = p
      · rw [hqp, put_lock]
      · rw [put_place_of_ne _ hqp] at hq
        rw [h.making q hq] at hlock
        cases hlock
    · by_cases hqp : q = p
      · subst hqp
        obtain rfl | rfl := hto
        · simp at hq
        · simp at hq
      · rw [put_place_of_ne _ hqp] at hq
        rw [h.holding q hq] at hlock
        cases hlock
    · obtain rfl : ⟨p, none⟩ = d := by simpa using hd
      left
      rw [put_place_self]
      exact ⟨rfl, hto⟩

lemma Owned.writePid (h : Owned w) {thrown : Place} (hfrom : w.place p = .made ∨ w.place p = .remade) :
    Owned (w.writePid p thrown) := by
  have hlock := h.making p hfrom
  rw [VaultDir.writePid, hlock]
  refine ⟨fun q hq => ?_, fun q hq => ?_, fun d hd => ?_⟩
  · by_cases hqp : q = p
    · subst hqp
      simp at hq
    · rw [put_place_of_ne _ hqp] at hq
      have hother := (h.making q hq).symm.trans hlock
      simp [hqp] at hother
  · by_cases hqp : q = p
    · rw [hqp, put_lock]
    · rw [put_place_of_ne _ hqp] at hq
      have hother := (h.holding q hq).symm.trans hlock
      simp at hother
  · obtain rfl : ⟨p, some p⟩ = d := by simpa using hd
    right
    rw [put_place_self]
    exact ⟨rfl, .inl rfl⟩

/-- The lock is removed while nobody else is at work in its directory. -/
lemma Owned.rmLock {a : Place} (hothers : ∀ q, q ≠ p → w.place q ≠ .made ∧ w.place q ≠ .remade ∧ w.place q ≠ .holding)
    (hto : a.Away) : Owned (w.rmLock p a) := by
  obtain ⟨hmade, hremade, hholding, _⟩ := hto
  refine ⟨fun q hq => ?_, fun q hq => ?_, fun d hd => ?_⟩
  · by_cases hqp : q = p
    · subst hqp
      simp [VaultDir.rmLock, hmade, hremade] at hq
    · obtain ⟨hqmade, hqremade, _⟩ := hothers q hqp
      rw [VaultDir.rmLock, put_place_of_ne _ hqp] at hq
      exact absurd hq (not_or.mpr ⟨hqmade, hqremade⟩)
  · by_cases hqp : q = p
    · subst hqp
      simp [VaultDir.rmLock, hholding] at hq
    · rw [VaultDir.rmLock, put_place_of_ne _ hqp] at hq
      exact absurd hq (hothers q hqp).2.2
  · simp [VaultDir.rmLock] at hd

lemma Owned.alone_of_holding (h : Owned w) (hp : w.place p = .holding) (q : ℕ) (hqp : q ≠ p) :
    w.place q ≠ .made ∧ w.place q ≠ .remade ∧ w.place q ≠ .holding := by
  have hlock := h.holding p hp
  refine ⟨fun hq => ?_, fun hq => ?_, fun hq => hqp (h.exclusive q p hq hp)⟩
  · have hother := (h.making q (.inl hq)).symm.trans hlock
    simp at hother
  · have hother := (h.making q (.inr hq)).symm.trans hlock
    simp at hother

lemma Owned.alone_of_stale (h : Owned w) (hdead : ∀ d ∈ w.lock, ∃ r ∈ d.pid, w.pidAlive r = false) (q : ℕ) :
    w.place q ≠ .made ∧ w.place q ≠ .remade ∧ w.place q ≠ .holding := by
  have hmaking : ¬ (w.place q = .made ∨ w.place q = .remade) := by
    intro hq
    obtain ⟨r, hr, _⟩ := hdead _ (h.making q hq)
    cases hr
  refine ⟨fun hq => hmaking (.inl hq), fun hq => hmaking (.inr hq), fun hq => ?_⟩
  obtain ⟨r, hr, hcrashed⟩ := hdead _ (h.holding q hq)
  cases hr
  simp [pidAlive, hq] at hcrashed

lemma Owned.react (h : Owned w) {e : LockEvent} (hquiet : w.Undisturbed e) (hstep : w.react e = some w') : Owned w' := by
  cases e with
  | crash p =>
    rw [VaultDir.react] at hstep
    split_ifs at hstep
    cases hstep
    exact h.crash hquiet.1 hquiet.2
  | step p =>
    rw [VaultDir.react, advance] at hstep
    split at hstep
    all_goals rename_i hp
    · cases hstep
      exact h.mkdir (by simp [hp, Place.Away]) (.inl rfl) (by simp [Place.Away])
    · cases hstep
      exact h.writePid (.inl hp)
    · split at hstep
      all_goals cases hstep
      all_goals exact h.move (by simp [hp, Place.Away]) (by simp [Place.Away])
    · cases hstep
      split_ifs
      all_goals exact h.move (by simp [hp, Place.Away]) (by simp [Place.Away])
    · cases hstep
      exact .rmLock (fun q _ => h.alone_of_stale (hquiet (by rw [hp, Place.isStale])) q) (by simp [Place.Away])
    · cases hstep
      exact h.mkdir (by simp [hp, Place.Away]) (.inr rfl) (by simp [Place.Away])
    · cases hstep
      exact h.writePid (.inr hp)
    · cases hstep
      exact .rmLock (h.alone_of_holding hp) (by simp [Place.Away])
    · cases hstep

lemma Owned.mayRemove (h : Owned w) {e : LockEvent} (hquiet : w.Undisturbed e) : w.MayRemove e := by
  cases e with
  | crash p => trivial
  | step p =>
    rintro (hp | hp) d hd
    · left
      obtain rfl : ⟨p, some p⟩ = d := Option.some.inj ((h.holding p hp).symm.trans hd)
      exact ⟨hp, rfl⟩
    · right
      obtain ⟨r, hr, hdead⟩ := hquiet hp d hd
      obtain ⟨hpid, _⟩ | ⟨hpid, hmaker⟩ := h.maker d hd
      · simp [hpid] at hr
      · obtain rfl : d.maker = r := Option.some.inj (hpid.symm.trans hr)
        simpa [pidAlive] using hdead

@[simp] lemma put_put (a b : Place) : (w.put p a).put p b = w.put p b := by
  rw [put, put, put, Function.update_idem]

/-- Six steps take over the lock of a crashed holder. -/
lemma Owned.takenOver (h : Owned w) : w.TakenOver := by
  intro d hd hcrashed p hp
  have hlock : w.lock = some d := hd
  have hpid : d.pid = some d.maker := by
    obtain ⟨_, hmaking | hmaking⟩ | ⟨hpid, _⟩ := h.maker d hd
    · simp [hcrashed] at hmaking
    · simp [hcrashed] at hmaking
    · exact hpid
  have hne : d.maker ≠ p := h.maker_ne hd (by simp [hp, Place.Away])
  let gone : VaultDir := { w with lock := none }
  have hrefused : w.react (.step p) = some (w.put p .refused) := by
    simp [VaultDir.react, advance, hp, VaultDir.mkdir, hlock]
  have hfound : (w.put p .refused).react (.step p) = some (w.put p (.found d.maker)) := by
    simp [VaultDir.react, advance, hlock, hpid]
  have hstale : (w.put p (.found d.maker)).react (.step p) = some (w.put p (.stale d.maker)) := by
    simp [VaultDir.react, advance, pidAlive, hne, hcrashed]
  have hremoved : (w.put p (.stale d.maker)).react (.step p) = some (gone.put p .removed) := by
    simp only [VaultDir.react, advance, put_place_self, VaultDir.rmLock]
    exact congrArg some (put_put (w := gone) _ _)
  have hremade : (gone.put p .removed).react (.step p) = some (VaultDir.put ⟨some ⟨p, none⟩, w.place⟩ p .remade) := by
    simp only [VaultDir.react, advance, put_place_self, VaultDir.mkdir, put_lock]
    exact congrArg some (put_put (w := ⟨some ⟨p, none⟩, w.place⟩) _ _)
  have hholding : (VaultDir.put ⟨some ⟨p, none⟩, w.place⟩ p .remade).react (.step p) =
      some (VaultDir.put ⟨some ⟨p, some p⟩, w.place⟩ p .holding) := by
    simp only [VaultDir.react, advance, put_place_self, VaultDir.writePid, put_lock]
    exact congrArg some (put_put (w := ⟨some ⟨p, some p⟩, w.place⟩) _ _)
  exact ⟨_, .next (.next (.next (.next (.next (.next .refl rfl hrefused) rfl hfound) rfl hstale) rfl hremoved) rfl
    hremade) rfl hholding, put_place_self _⟩

/-- A directory without a pid file keeps everyone out. -/
lemma not_holding_of_no_pid {d : LockDir} (hlock : w.lock = some d) (hpid : d.pid = none) (hp : w.place p = .outside)
    (h : spawnLock.Later (fun _ e => e = .step p) w w') : w'.place p ≠ .holding := by
  suffices hh : w'.lock = some d ∧ (w'.place p = .outside ∨ w'.place p = .refused) by
    obtain ⟨_, ho | ho⟩ := hh
    · simp [ho]
    · simp [ho]
  refine h.invariant (P := fun u => u.lock = some d ∧ (u.place p = .outside ∨ u.place p = .refused)) ⟨hlock, .inl hp⟩ ?_
  rintro u e v ⟨hu, hplace⟩ rfl hstep
  change u.react (.step p) = some v at hstep
  obtain ho | ho := hplace
  · have hv : v = u.put p .refused := by simpa [VaultDir.react, advance, ho, mkdir, hu] using hstep.symm
    rw [hv]
    exact ⟨hu, .inr (put_place_self _)⟩
  · have hv : v = u.put p .outside := by simpa [VaultDir.react, advance, ho, hu, hpid] using hstep.symm
    rw [hv]
    exact ⟨hu, .inl (put_place_self _)⟩

/-- Only finitely many processes have taken a step. -/
lemma exists_outside (h : spawnLock.Reachable System.free w) : ∃ n, ∀ p ≥ n, w.place p = .outside := by
  induction h with
  | start hi => exact ⟨0, fun p _ => hi.2 p⟩
  | @next u e v _ _ hstep ih =>
    obtain ⟨n, hn⟩ := ih
    have hother : ∃ p, ∀ q ≠ p, v.place q = u.place q := by
      change u.react e = some v at hstep
      cases e with
      | crash p =>
        rw [VaultDir.react] at hstep
        split_ifs at hstep
        cases hstep
        exact ⟨p, fun q hq => put_place_of_ne _ hq⟩
      | step p =>
        refine ⟨p, fun q hq => ?_⟩
        rw [VaultDir.react, advance] at hstep
        split at hstep
        all_goals try rw [mkdir] at hstep
        all_goals try rw [writePid] at hstep
        all_goals try split at hstep
        all_goals cases hstep
        all_goals exact put_place_of_ne _ hq
    obtain ⟨p, hp⟩ := hother
    refine ⟨max n (p + 1), fun q hq => ?_⟩
    rw [hp q (by omega)]
    exact hn q (by omega)

lemma lawful_iff_undisturbed {e : LockEvent} (hreach : spawnLock.Reachable System.free w) (h : Owned w)
    (hstep : w.react e = some w') : Lawful (w, e, w') ↔ w.Undisturbed e := by
  constructor
  · rintro ⟨_, _, hmay, _, htaken⟩
    dsimp only at hmay htaken
    cases e with
    | step p =>
      intro hp d hd
      obtain ⟨hholding, _⟩ | hcrashed := hmay (.inr hp) d hd
      · simp [hholding, Place.isStale] at hp
      · obtain ⟨_, hmaking | hmaking⟩ | ⟨hpid, _⟩ := h.maker d hd
        · simp [hcrashed] at hmaking
        · simp [hcrashed] at hmaking
        · exact ⟨d.maker, hpid, by simp [pidAlive, hcrashed]⟩
    | crash p =>
      -- the directory that the process leaves has no pid file
      refine not_or.mp fun hmaking => ?_
      have hlock := h.making p hmaking
      have hnext : spawnLock.step w (.crash p) = some w' := hstep
      obtain ⟨n, hn⟩ := exists_outside (hreach.next trivial hnext)
      rw [VaultDir.react] at hstep
      split_ifs at hstep
      cases hstep
      obtain ⟨u, hlater, hholding⟩ := htaken ⟨p, none⟩ hlock (put_place_self _) n (hn n le_rfl)
      exact not_holding_of_no_pid (w := w.put p .crashed) hlock rfl (hn n le_rfl) hlater hholding
  · intro hquiet
    have hnext := h.react hquiet hstep
    exact ⟨h.exclusive, h.takenOver, h.mayRemove hquiet, hnext.exclusive, hnext.takenOver⟩

/-- The lock keeps its law exactly in the runs all of whose steps are undisturbed. -/
theorem spawnLock_lawful_iff {steps : List (VaultDir × LockEvent × VaultDir)} (h : spawnLock.Run steps w) :
    (∀ x ∈ steps, Lawful x) ↔ ∀ x ∈ steps, x.1.Undisturbed x.2.1 :=
  h.lawful_iff (P := Owned) (fun _ => owned_start) (fun _ _ _ hs hquiet hstep => hs.react hquiet hstep)
    (fun _ _ _ hreach hs hstep => lawful_iff_undisturbed hreach hs hstep)

def emptyVault : VaultDir := ⟨none, fun _ => .outside⟩

lemma init_emptyVault : spawnLock.init emptyVault := ⟨rfl, fun _ => rfl⟩

/-- The first process crashes while it holds the lock, the second takes it over and releases it. -/
theorem spawnLock_taken_over : ∃ steps w, spawnLock.Run steps w ∧ steps.length = 10 ∧ w.lock = none ∧
    ∀ x ∈ steps, Lawful x := by
  have hrun : (spawnLock.exec Undisturbed emptyVault ([.step 1, .step 1, .crash 1] ++ List.replicate 7 (.step 2))).map
      (fun w => w.lock) = some none := by decide
  obtain ⟨w, hexec, hlock⟩ := Option.map_eq_some_iff.mp hrun
  obtain ⟨steps, hsteps, hevents, hquiet⟩ := System.exec_run init_emptyVault hexec
  refine ⟨steps, w, hsteps, ?_, hlock, (spawnLock_lawful_iff hsteps).mpr hquiet⟩
  simpa using congrArg List.length hevents

/-- Two processes find the first one dead, and each takes the lock over. -/
theorem spawnLock_held_twice : ¬ ∀ steps w, spawnLock.Run steps w → ∀ x ∈ steps, Lawful x := by
  intro h
  have hrun : (spawnLock.exec System.free emptyVault ([.step 1, .step 1, .crash 1] ++
      List.replicate 3 (.step 2) ++ List.replicate 3 (.step 3) ++ List.replicate 3 (.step 2) ++
        List.replicate 3 (.step 3))).map (fun w => (w.place 2, w.place 3)) = some (.holding, .holding) := by
    decide
  obtain ⟨w, hexec, hplaces⟩ := Option.map_eq_some_iff.mp hrun
  obtain ⟨h2, h3⟩ := Prod.mk.inj hplaces
  obtain ⟨steps, hsteps, hevents, _⟩ := System.exec_run init_emptyVault hexec
  cases hsteps with
  | start => simp at hevents
  | next hrest hstep =>
    obtain ⟨_, _, _, hexclusive, _⟩ := h _ _ (.next hrest hstep) _ (List.mem_append_right _ List.mem_cons_self)
    exact absurd (hexclusive 2 3 h2 h3) (by decide)

end VaultDir

end VivimOmega.Daemon
