import OpenStarry.UserInput.Broker

/-!
# Answers over whole runs

However the operations of a broker interleave, a request is answered once at most, and whatever is
delivered or replayed for it is that answer, given by its owner. A late answer to a request whose
waiting task was cancelled is the one that escapes the broker's own errors.
-/

namespace OpenStarry.UserInput

open Lib Text

abbrev Entry := Action × Outcome

section

variable (env : Runtime)

/-! ### What a log says of a request -/

/-- The answers of the calls of `resolve` that returned `replayed` for the request. -/
def answersOf (replayed : Bool) (id : Str) (log : List Entry) : List Answers :=
  log.filterMap fun
    | (.resolve _ requestId _, .resolved again answers) =>
        if requestId = id ∧ again = replayed then some answers else none
    | _ => none

def deliveries (id : Str) (log : List Entry) : List Answers :=
  log.filterMap fun
    | (_, .delivered requestId answers) => if requestId = id then some answers else none
    | _ => none

def openings (id : Str) (log : List Entry) : List (Str × Dict) :=
  log.filterMap fun
    | (.openRequest requestId sessionKey _ _ _, .opened publicPayload) =>
        if requestId = id then
          some (Session.canonicalizeSessionKey env.lower sessionKey, publicPayload)
        else none
    | _ => none

def answerers (id : Str) (log : List Entry) : List Str :=
  log.filterMap fun
    | (.resolve sessionKey requestId _, .resolved _ _) =>
        if requestId = id then some (Session.canonicalizeSessionKey env.lower sessionKey) else none
    | _ => none

/-- What calls of `resolve` have raised. -/
def resolveErrors (log : List Entry) : List Raised :=
  log.filterMap fun
    | (.resolve _ _ _, .raised raised) => some raised
    | _ => none

/-- One answer at most, the same wherever it is delivered or replayed, and from the owner. -/
structure Answered (log : List Entry) : Prop where
  once : ∀ id, (answersOf false id log).length ≤ 1
  delivered : ∀ id, ∀ answers ∈ deliveries id log, answers ∈ answersOf false id log
  replayed : ∀ id, ∀ answers ∈ answersOf true id log, answers ∈ answersOf false id log
  owned : ∀ id, ∀ sessionKey ∈ answerers env id log,
    (openings env id log).map Prod.fst = [sessionKey]

/-- A run of the broker whose steps all meet the guard. -/
inductive Run (guard : Broker → Action → Prop) : Broker → List Entry → Prop where
  | start : Run guard {} []
  | next {s s' : Broker} {log : List Entry} {action : Action} {outcome : Outcome}
      (hrun : Run guard s log) (hguard : guard s action)
      (hstep : s.step env action = some (s', outcome)) : Run guard s' (log ++ [(action, outcome)])

/-! ### The invariant -/

def FutureState.answers : FutureState → List Answers
  | pending => []
  | result answers => [answers]
  | cancelled => []

/-- The broker agrees with its log. -/
structure Inv (s : Broker) (log : List Entry) : Prop where
  request : ∀ id request, s.objects.lookup id = some request →
    openings env id log = [(request.sessionKey, request.payload)] ∧
      answersOf false id log = request.future.answers
  unseen : ∀ id, s.objects.lookup id = none →
    openings env id log = [] ∧ answersOf false id log = []
  completed : ∀ found ∈ s.completed, ∃ request,
    s.objects.lookup found.1 = some request ∧ request.sessionKey = found.2.sessionKey ∧
      request.payload = found.2.payload ∧ request.future = .result found.2.answers
  delivered : ∀ id, ∀ answers ∈ deliveries id log, answers ∈ answersOf false id log
  replayed : ∀ id, ∀ answers ∈ answersOf true id log, answers ∈ answersOf false id log
  owned : ∀ id, ∀ sessionKey ∈ answerers env id log,
    (openings env id log).map Prod.fst = [sessionKey]

variable {env} {s s' s'' : Broker} {log : List Entry} {entry : Entry} {id : Str}
  {request : PendingUserInput}

theorem Inv.answered (h : Inv env s log) : Answered env log where
  once := by
    intro id
    cases hlookup : s.objects.lookup id with
    | none =>
        rw [(h.unseen id hlookup).2]
        exact Nat.zero_le 1
    | some request =>
        rw [(h.request id request hlookup).2]
        cases request.future <;> simp [FutureState.answers]
  delivered := h.delivered
  replayed := h.replayed
  owned := h.owned

/-! ### Steps without an answer -/

/-- Nothing has changed but that futures were cancelled. -/
structure Cancels (s s' : Broker) : Prop where
  completed : s'.completed = s.completed
  objects : ∀ id, s'.objects.lookup id = s.objects.lookup id ∨ ∃ request,
    s.objects.lookup id = some request ∧ request.future = .pending ∧
      s'.objects.lookup id = some { request with future := .cancelled }

theorem Cancels.refl : Cancels s s := ⟨rfl, fun _ => Or.inl rfl⟩

theorem Cancels.trans (h : Cancels s s') (h' : Cancels s' s'') : Cancels s s'' where
  completed := h'.completed.trans h.completed
  objects := by
    intro id
    rcases h'.objects id with heq | ⟨request, hlookup, hpending, hcancelled⟩
    · rw [heq]
      exact h.objects id
    · rcases h.objects id with heq' | ⟨earlier, -, -, hearlier⟩
      · rw [heq'] at hlookup
        exact Or.inr ⟨request, hlookup, hpending, hcancelled⟩
      · rw [hearlier, Option.some.injEq] at hlookup
        rw [← hlookup] at hpending
        cases hpending

theorem Cancels.of_eq (hobjects : s'.objects = s.objects) (hcompleted : s'.completed = s.completed) :
    Cancels s s' := ⟨hcompleted, fun _ => Or.inl (by rw [hobjects])⟩

theorem Cancels.setFuture (hlookup : s.objects.lookup id = some request)
    (hpending : request.future = .pending) : Cancels s (s.setFuture id request .cancelled) where
  completed := rfl
  objects := by
    intro other
    rw [Broker.setFuture, Keyed.lookup_assign]
    by_cases hother : other = id
    · rw [if_pos hother, hother]
      exact Or.inr ⟨request, hlookup, hpending, rfl⟩
    · rw [if_neg hother]
      exact Or.inl rfl

theorem lookup_of_pendingRequest (h : s.pendingRequest id = some request) :
    s.objects.lookup id = some request := by
  rw [Broker.pendingRequest] at h
  split_ifs at h
  exact h

theorem Cancels.cancelRequest (s : Broker) (id : Str) : Cancels s (s.cancelRequest id) := by
  rw [Broker.cancelRequest]
  split
  · exact .refl
  · rename_i request hrequest
    split
    · rename_i hpending
      exact (Cancels.setFuture (lookup_of_pendingRequest hrequest) hpending).trans (.of_eq rfl rfl)
    · exact .of_eq rfl rfl

theorem Cancels.cancelTask (s : Broker) (taskId : Str) : Cancels s (s.cancelTask taskId) := by
  rw [Broker.cancelTask]
  generalize s.pending.filter _ = ids
  induction ids generalizing s with
  | nil => exact .refl
  | cons id rest ih => exact (Cancels.cancelRequest s id).trans (ih _)

/-- The entry accepts no answer, and what it delivers or replays was accepted before. -/
structure Backed (env : Runtime) (log : List Entry) (entry : Entry) : Prop where
  unaccepted : ∀ id, answersOf false id [entry] = []
  unopened : ∀ id, openings env id [entry] = []
  delivered : ∀ id, ∀ answers ∈ deliveries id [entry], answers ∈ answersOf false id log
  replayed : ∀ id, ∀ answers ∈ answersOf true id [entry], answers ∈ answersOf false id log
  owned : ∀ id, ∀ sessionKey ∈ answerers env id [entry],
    (openings env id log).map Prod.fst = [sessionKey]

theorem answersOf_append (replayed : Bool) (id : Str) (first second : List Entry) :
    answersOf replayed id (first ++ second) =
      answersOf replayed id first ++ answersOf replayed id second := List.filterMap_append

theorem deliveries_append (id : Str) (first second : List Entry) :
    deliveries id (first ++ second) = deliveries id first ++ deliveries id second :=
  List.filterMap_append

theorem openings_append (id : Str) (first second : List Entry) :
    openings env id (first ++ second) = openings env id first ++ openings env id second :=
  List.filterMap_append

theorem answerers_append (id : Str) (first second : List Entry) :
    answerers env id (first ++ second) = answerers env id first ++ answerers env id second :=
  List.filterMap_append

theorem Inv.cancels (h : Inv env s log) (hcancels : Cancels s s') (hentry : Backed env log entry) :
    Inv env s' (log ++ [entry]) := by
  have haccepted : ∀ id, answersOf false id (log ++ [entry]) = answersOf false id log := by
    intro id
    rw [answersOf_append, hentry.unaccepted id, List.append_nil]
  have howners : ∀ id, openings env id (log ++ [entry]) = openings env id log := by
    intro id
    rw [openings_append, hentry.unopened id, List.append_nil]
  constructor
  · intro id request hlookup
    rw [haccepted, howners]
    rcases hcancels.objects id with heq | ⟨earlier, hearlier, hpending, hcancelled⟩
    · rw [heq] at hlookup
      exact h.request id request hlookup
    · rw [hcancelled, Option.some.injEq] at hlookup
      obtain ⟨howner, hanswers⟩ := h.request id earlier hearlier
      rw [hpending] at hanswers
      rw [← hlookup]
      exact ⟨howner, hanswers⟩
  · intro id hlookup
    rw [haccepted, howners]
    rcases hcancels.objects id with heq | ⟨earlier, hearlier, hpending, hcancelled⟩
    · rw [heq] at hlookup
      exact h.unseen id hlookup
    · rw [hcancelled] at hlookup
      cases hlookup
  · intro found hfound
    rw [hcancels.completed] at hfound
    obtain ⟨request, hlookup, hsession, hpayload, hfuture⟩ := h.completed found hfound
    rcases hcancels.objects found.1 with heq | ⟨earlier, hearlier, hpending, hcancelled⟩
    · exact ⟨request, heq.trans hlookup, hsession, hpayload, hfuture⟩
    · rw [hlookup, Option.some.injEq] at hearlier
      rw [← hearlier, hfuture] at hpending
      cases hpending
  · intro id answers hanswers
    rw [deliveries_append, List.mem_append] at hanswers
    rw [haccepted]
    exact hanswers.elim (h.delivered id answers) (hentry.delivered id answers)
  · intro id answers hanswers
    rw [answersOf_append, List.mem_append] at hanswers
    rw [haccepted]
    exact hanswers.elim (h.replayed id answers) (hentry.replayed id answers)
  · intro id sessionKey hsession
    rw [answerers_append, List.mem_append] at hsession
    rw [howners]
    exact hsession.elim (h.owned id sessionKey) (hentry.owned id sessionKey)

/-! ### The steps of a run -/

theorem Backed.of_raised (action : Action) (raised : Raised) :
    Backed env log (action, .raised raised) := by
  cases action <;> exact ⟨fun _ => rfl, fun _ => rfl, fun _ _ h => absurd h List.not_mem_nil,
    fun _ _ h => absurd h List.not_mem_nil, fun _ _ h => absurd h List.not_mem_nil⟩

theorem Backed.of_quiet (action : Action) : Backed env log (action, .quiet) := by
  cases action <;> exact ⟨fun _ => rfl, fun _ => rfl, fun _ _ h => absurd h List.not_mem_nil,
    fun _ _ h => absurd h List.not_mem_nil, fun _ _ h => absurd h List.not_mem_nil⟩

theorem Backed.of_delivered {action : Action} {answers : Answers}
    (haccepted : answersOf false id log = [answers]) :
    Backed env log (action, .delivered id answers) where
  unaccepted := fun _ => by cases action <;> rfl
  unopened := fun _ => by cases action <;> rfl
  delivered := by
    intro other given hgiven
    simp only [deliveries, List.filterMap_cons, List.filterMap_nil] at hgiven
    split_ifs at hgiven with hid
    · rw [List.mem_singleton.mp hgiven, ← hid, haccepted]
      exact List.mem_singleton_self answers
    · exact absurd hgiven List.not_mem_nil
  replayed := fun _ _ h => by
    cases action <;> exact absurd h List.not_mem_nil
  owned := fun _ _ h => by
    cases action <;> exact absurd h List.not_mem_nil

theorem Backed.of_replayed {sessionKey : Str} {fields : Dict} {answers : Answers}
    (haccepted : answersOf false id log = [answers])
    (howner : (openings env id log).map Prod.fst =
      [Session.canonicalizeSessionKey env.lower sessionKey]) :
    Backed env log (.resolve sessionKey id fields, .resolved true answers) where
  unaccepted := by
    intro other
    simp [answersOf]
  unopened := fun _ => rfl
  delivered := fun _ _ h => absurd h List.not_mem_nil
  replayed := by
    intro other given hgiven
    simp only [answersOf, List.filterMap_cons, List.filterMap_nil] at hgiven
    split_ifs at hgiven with hid
    · rw [List.mem_singleton.mp hgiven, ← hid.1, haccepted]
      exact List.mem_singleton_self answers
    · exact absurd hgiven List.not_mem_nil
  owned := by
    intro other session hsession
    simp only [answerers, List.filterMap_cons, List.filterMap_nil] at hsession
    split_ifs at hsession with hid
    · rw [List.mem_singleton.mp hsession, ← hid, howner]
    · exact absurd hsession List.not_mem_nil

theorem Inv.accepted_of_result (h : Inv env s log) (hlookup : s.objects.lookup id = some request)
    {answers : Answers} (hfuture : request.future = .result answers) :
    answersOf false id log = [answers] := by
  rw [(h.request id request hlookup).2, hfuture, FutureState.answers]

theorem Inv.opened {requestId sessionKey taskId toolUseId : Str} {payload : Dict}
    (h : Inv env s log) (hfresh : s.objects.lookup requestId = none) (opened : PendingUserInput)
    (pending : List Str)
    (hopened : opened = { opened with
      sessionKey := Session.canonicalizeSessionKey env.lower sessionKey, future := .pending }) :
    Inv env { s with objects := Keyed.assign Prod.fst (requestId, opened) s.objects, pending }
      (log ++ [(.openRequest requestId sessionKey taskId toolUseId payload, .opened opened.payload)]) := by
  obtain ⟨howners, haccepted⟩ := h.unseen requestId hfresh
  have hsession : opened.sessionKey = Session.canonicalizeSessionKey env.lower sessionKey :=
    congrArg PendingUserInput.sessionKey hopened
  have hfuture : opened.future = .pending := congrArg PendingUserInput.future hopened
  have hnew : ∀ id, openings env id [(.openRequest requestId sessionKey taskId toolUseId payload,
      .opened opened.payload)] =
        if requestId = id then
          [(Session.canonicalizeSessionKey env.lower sessionKey, opened.payload)] else [] := by
    intro id
    by_cases hid : requestId = id <;> simp [openings, hid]
  have hsame : ∀ id, answersOf false id (log ++ [(.openRequest requestId sessionKey taskId toolUseId
      payload, .opened opened.payload)]) = answersOf false id log := by
    intro id
    rw [answersOf_append]
    exact List.append_nil _
  constructor
  · intro id request hlookup
    rw [Keyed.lookup_assign] at hlookup
    rw [openings_append, hnew, hsame]
    split_ifs at hlookup with hid
    · rw [Option.some.injEq] at hlookup
      rw [if_pos hid.symm, hid, howners, haccepted, ← hlookup, hsession, hfuture]
      exact ⟨rfl, rfl⟩
    · rw [if_neg (Ne.symm hid), List.append_nil]
      exact h.request id request hlookup
  · intro id hlookup
    rw [Keyed.lookup_assign] at hlookup
    rw [openings_append, hnew, hsame]
    split_ifs at hlookup with hid
    rw [if_neg (Ne.symm hid), List.append_nil]
    exact h.unseen id hlookup
  · intro found hfound
    obtain ⟨request, hlookup, hrest⟩ := h.completed found hfound
    refine ⟨request, ?_, hrest⟩
    rw [Keyed.lookup_assign, if_neg]
    · exact hlookup
    · intro heq
      rw [heq, hfresh] at hlookup
      cases hlookup
  · intro id answers hanswers
    rw [deliveries_append, List.mem_append] at hanswers
    rw [hsame]
    exact hanswers.elim (h.delivered id answers) fun hnil => absurd hnil List.not_mem_nil
  · intro id answers hanswers
    rw [answersOf_append, List.mem_append] at hanswers
    rw [hsame]
    exact hanswers.elim (h.replayed id answers) fun hnil => absurd hnil List.not_mem_nil
  · intro id session hmem
    rw [answerers_append, List.mem_append] at hmem
    have hold := hmem.elim (h.owned id session) fun hnil => absurd hnil List.not_mem_nil
    rw [openings_append, hnew, if_neg, List.append_nil, hold]
    intro heq
    rw [← heq, howners] at hold
    cases hold

theorem Inv.openRequest {requestId sessionKey taskId toolUseId : Str} {payload : Dict}
    {outcome : Outcome} (h : Inv env s log) (hfresh : s.objects.lookup requestId = none)
    (hstep : s.openRequest env requestId sessionKey taskId toolUseId payload = (s', outcome)) :
    Inv env s' (log ++ [(.openRequest requestId sessionKey taskId toolUseId payload, outcome)]) := by
  rw [Broker.openRequest] at hstep
  dsimp only at hstep
  split at hstep
  · rw [Prod.mk.injEq] at hstep
    obtain ⟨rfl, rfl⟩ := hstep
    exact h.cancels .refl (.of_raised _ _)
  · split at hstep
    · rw [Prod.mk.injEq] at hstep
      obtain ⟨rfl, rfl⟩ := hstep
      exact h.cancels .refl (.of_raised _ _)
    · split at hstep
      · rw [Prod.mk.injEq] at hstep
        obtain ⟨rfl, rfl⟩ := hstep
        exact h.cancels .refl (.of_raised _ _)
      · rw [Prod.mk.injEq] at hstep
        obtain ⟨rfl, rfl⟩ := hstep
        exact h.opened hfresh _ _ rfl

theorem mem_remember {completed : CompletedUserInput} {found : Str × CompletedUserInput}
    (h : found ∈ (s.remember id completed).completed) :
    found ∈ s.completed ∧ found.1 ≠ id ∨ found = (id, completed) := by
  rw [Broker.remember] at h
  dsimp only at h
  generalize (Keyed.moveToEnd Prod.fst s.completed (id, completed)).length - 256 = n at h
  have hmem := List.mem_of_mem_drop h
  rw [Keyed.moveToEnd, List.mem_append, List.mem_singleton] at hmem
  rcases hmem with hmem | hmem
  · exact Or.inl ⟨List.mem_of_mem_filter hmem, of_decide_eq_true (List.mem_filter.mp hmem).2⟩
  · exact Or.inr hmem

theorem Inv.firstAnswer {sessionKey : Str} {fields : Dict} {answers : Answers} (h : Inv env s log)
    (hlookup : s.objects.lookup id = some request)
    (howner : request.sessionKey = Session.canonicalizeSessionKey env.lower sessionKey)
    (hpending : request.future = .pending) :
    Inv env ((s.setFuture id request (.result answers)).remember id
        { sessionKey := Session.canonicalizeSessionKey env.lower sessionKey,
          payload := request.payload, answers })
      (log ++ [(.resolve sessionKey id fields, .resolved false answers)]) := by
  obtain ⟨howners, haccepted⟩ := h.request id request hlookup
  rw [hpending, FutureState.answers] at haccepted
  have hnew : ∀ other, answersOf false other [(.resolve sessionKey id fields,
      .resolved false answers)] = if id = other then [answers] else [] := by
    intro other
    by_cases hid : id = other <;> simp [answersOf, hid]
  have hsame : ∀ other, openings env other (log ++ [(.resolve sessionKey id fields,
      .resolved false answers)]) = openings env other log := by
    intro other
    rw [openings_append]
    exact List.append_nil _
  constructor
  · intro other found hfound
    rw [answersOf_append, hnew, hsame]
    have hassign : (Keyed.assign Prod.fst (id, { request with future := .result answers })
      s.objects).lookup other = some found := hfound
    rw [Keyed.lookup_assign] at hassign
    split_ifs at hassign with hid
    · rw [Option.some.injEq] at hassign
      rw [if_pos hid.symm, hid, howners, haccepted, ← hassign]
      exact ⟨rfl, rfl⟩
    · rw [if_neg (Ne.symm hid), List.append_nil]
      exact h.request other found hassign
  · intro other hnone
    rw [answersOf_append, hnew, hsame]
    have hassign : (Keyed.assign Prod.fst (id, { request with future := .result answers })
      s.objects).lookup other = none := hnone
    rw [Keyed.lookup_assign] at hassign
    split_ifs at hassign with hid
    rw [if_neg (Ne.symm hid), List.append_nil]
    exact h.unseen other hassign
  · intro found hfound
    have hassign : ∀ other, ((s.setFuture id request (.result answers)).objects).lookup other =
        if other = id then some { request with future := .result answers }
        else s.objects.lookup other := fun other => Keyed.lookup_assign _ _ _ _
    rcases mem_remember hfound with ⟨hmem, hne⟩ | rfl
    · obtain ⟨earlier, hearlier, hrest⟩ := h.completed found hmem
      refine ⟨earlier, ?_, hrest⟩
      refine (hassign found.1).trans ?_
      rw [if_neg hne]
      exact hearlier
    · refine ⟨{ request with future := .result answers }, ?_, howner, rfl, rfl⟩
      exact (hassign id).trans (if_pos rfl)
  · intro other given hgiven
    rw [deliveries_append, List.mem_append] at hgiven
    rw [answersOf_append]
    refine List.mem_append_left _ ?_
    exact hgiven.elim (h.delivered other given) fun hnil => absurd hnil List.not_mem_nil
  · intro other given hgiven
    have hnone : answersOf true other [(.resolve sessionKey id fields, .resolved false answers)] =
        [] := by
      simp [answersOf]
    rw [answersOf_append, hnone, List.append_nil] at hgiven
    rw [answersOf_append]
    exact List.mem_append_left _ (h.replayed other given hgiven)
  · intro other session hmem
    rw [answerers_append, List.mem_append] at hmem
    rw [hsame]
    rcases hmem with hmem | hmem
    · exact h.owned other session hmem
    · simp only [answerers, List.filterMap_cons, List.filterMap_nil] at hmem
      split_ifs at hmem with hid
      · rw [List.mem_singleton.mp hmem, ← hid, howners, List.map_singleton, howner]
      · exact absurd hmem List.not_mem_nil

theorem Inv.resolve {sessionKey requestId : Str} {fields : Dict} {outcome : Outcome}
    (h : Inv env s log) (hstep : s.resolve env sessionKey requestId fields = (s', outcome)) :
    Inv env s' (log ++ [(.resolve sessionKey requestId fields, outcome)]) := by
  rw [Broker.resolve] at hstep
  split at hstep
  · rename_i entry hentry
    rw [Prod.mk.injEq] at hstep
    obtain ⟨rfl, rfl⟩ := hstep
    obtain ⟨request, hlookup, hsession, -, hfuture⟩ := h.completed _ (Keyed.mem_of_lookup hentry)
    refine h.cancels .refl ?_
    rw [Broker.resolveCompleted]
    split_ifs with howner
    · exact .of_raised _ _
    · split
      · exact .of_raised _ _
      · rename_i answers hanswers
        split_ifs with hsame
        · exact .of_raised _ _
        · rw [not_not] at howner hsame
          refine .of_replayed ?_ ?_
          · rw [h.accepted_of_result hlookup hfuture, hsame]
          · rw [(h.request _ request hlookup).1, List.map_singleton, hsession, howner]
  · split at hstep
    · rw [Prod.mk.injEq] at hstep
      obtain ⟨rfl, rfl⟩ := hstep
      exact h.cancels .refl (.of_raised _ _)
    · rename_i request hrequest
      have hlookup := lookup_of_pendingRequest hrequest
      rw [Broker.resolvePending] at hstep
      split_ifs at hstep with howner
      · rw [Prod.mk.injEq] at hstep
        obtain ⟨rfl, rfl⟩ := hstep
        exact h.cancels .refl (.of_raised _ _)
      · rw [not_not] at howner
        split at hstep
        · rw [Prod.mk.injEq] at hstep
          obtain ⟨rfl, rfl⟩ := hstep
          exact h.cancels .refl (.of_raised _ _)
        · rename_i answers hanswers
          split at hstep
          · rename_i existing hfuture
            split_ifs at hstep with hsame
            · rw [Prod.mk.injEq] at hstep
              obtain ⟨rfl, rfl⟩ := hstep
              exact h.cancels .refl (.of_raised _ _)
            · rw [not_not] at hsame
              rw [Prod.mk.injEq] at hstep
              obtain ⟨rfl, rfl⟩ := hstep
              refine h.cancels .refl (.of_replayed ?_ ?_)
              · rw [h.accepted_of_result hlookup hfuture, hsame]
              · rw [(h.request _ request hlookup).1, List.map_singleton, howner]
          · rw [Prod.mk.injEq] at hstep
            obtain ⟨rfl, rfl⟩ := hstep
            exact h.cancels .refl (.of_raised _ _)
          · rename_i hfuture
            rw [Prod.mk.injEq] at hstep
            obtain ⟨rfl, rfl⟩ := hstep
            exact h.firstAnswer hlookup howner hfuture

theorem Inv.finishWait {t : Broker} {action : Action} {mustCancel : Bool} {outcome : Outcome}
    (h : Inv env s log) (ht : Cancels s t) (hlookup : s.objects.lookup id = some request)
    (hstep : t.finishWait id request.future mustCancel = (s', outcome)) :
    Inv env s' (log ++ [(action, outcome)]) := by
  unfold Broker.finishWait at hstep
  split at hstep
  · rename_i answers hfuture
    rw [Prod.mk.injEq] at hstep
    obtain ⟨rfl, rfl⟩ := hstep
    exact h.cancels (ht.trans (.of_eq rfl rfl)) (.of_delivered (h.accepted_of_result hlookup hfuture))
  · rw [Prod.mk.injEq] at hstep
    obtain ⟨rfl, rfl⟩ := hstep
    exact h.cancels (ht.trans (.of_eq rfl rfl)) (.of_raised _ _)

theorem Inv.wait {task : Nat} {requestId : Str} {outcome : Outcome} (h : Inv env s log)
    (hstep : s.wait task requestId = (s', outcome)) :
    Inv env s' (log ++ [(.wait task requestId, outcome)]) := by
  rw [Broker.wait] at hstep
  split at hstep
  · rw [Prod.mk.injEq] at hstep
    obtain ⟨rfl, rfl⟩ := hstep
    exact h.cancels .refl (.of_raised _ _)
  · rename_i request hrequest
    split at hstep
    · rw [Prod.mk.injEq] at hstep
      obtain ⟨rfl, rfl⟩ := hstep
      exact h.cancels (.of_eq rfl rfl) (.of_quiet _)
    · exact h.finishWait .refl (lookup_of_pendingRequest hrequest) hstep

theorem Cancels.cancelWaiter {task : Nat} {waiter : Waiter}
    (hlookup : s.objects.lookup waiter.requestId = some request) :
    Cancels s (s.cancelWaiter task waiter request) := by
  rw [Broker.cancelWaiter]
  split
  · rename_i hpending
    exact .setFuture hlookup hpending
  · exact .of_eq rfl rfl

theorem Inv.step {action : Action} {outcome : Outcome} (h : Inv env s log)
    (hstep : s.step env action = some (s', outcome)) : Inv env s' (log ++ [(action, outcome)]) := by
  cases action with
  | openRequest requestId sessionKey taskId toolUseId payload =>
      rw [Broker.step] at hstep
      split_ifs at hstep with hsome
      rw [Option.not_isSome_iff_eq_none] at hsome
      exact h.openRequest hsome (Option.some.inj hstep)
  | resolve sessionKey requestId fields => exact h.resolve (Option.some.inj hstep)
  | wait task requestId =>
      rw [Broker.step] at hstep
      split_ifs at hstep
      exact h.wait (Option.some.inj hstep)
  | wake task =>
      rw [Broker.step] at hstep
      split at hstep
      · cases hstep
      · rename_i waiter hwaiter
        split at hstep
        · cases hstep
        · rename_i request hrequest
          split_ifs at hstep
          refine h.finishWait ?_ hrequest (Option.some.inj hstep)
          exact .of_eq rfl rfl
  | cancelWaiter task =>
      rw [Broker.step] at hstep
      split at hstep
      · cases hstep
      · obtain ⟨request, hrequest, heq⟩ := Option.map_eq_some_iff.mp hstep
        rw [Prod.mk.injEq] at heq
        obtain ⟨rfl, rfl⟩ := heq
        exact h.cancels (.cancelWaiter hrequest) (.of_quiet _)
  | cancelRequest requestId =>
      cases hstep
      exact h.cancels (.cancelRequest s requestId) (.of_quiet _)
  | cancelTask taskId =>
      cases hstep
      exact h.cancels (.cancelTask s taskId) (.of_quiet _)

theorem Run.inv {guard : Broker → Action → Prop} (h : Run env guard s log) : Inv env s log := by
  induction h with
  | start =>
      constructor
      · intro id request hlookup
        cases hlookup
      · exact fun _ _ => ⟨rfl, rfl⟩
      · exact fun _ hfound => absurd hfound List.not_mem_nil
      · exact fun _ _ hanswers => absurd hanswers List.not_mem_nil
      · exact fun _ _ hanswers => absurd hanswers List.not_mem_nil
      · exact fun _ _ hsession => absurd hsession List.not_mem_nil
  | next hrun hguard hstep ih => exact ih.step hstep

/-! ### Errors -/

/-- A step that no broker's own error can be missing from: the registered choices can be iterated
over, and the owner of a request does not answer it with acceptable fields after its waiting task was
cancelled and before its entry is removed. -/
def Timely (env : Runtime) (s : Broker) : Action → Prop
  | .openRequest _ _ _ _ payload => ChoicesGiven payload
  | .resolve sessionKey requestId fields => ∀ request, s.pendingRequest requestId = some request →
      request.future = .cancelled →
      request.sessionKey = Session.canonicalizeSessionKey env.lower sessionKey →
        ∀ answers, validateUserInputFields env request.payload fields ≠ .ok answers
  | _ => True

theorem choicesGiven_publicPayload {requestId taskId : Str} {payload : Dict}
    (h : ChoicesGiven payload) : ChoicesGiven (Broker.publicPayload requestId taskId payload) := by
  have hkey : "clarify_schema".toList ∉ ["status".toList, "kind".toList, "paused".toList,
      "request_id".toList, "run_id".toList] := by decide
  have hschema : (Broker.publicPayload requestId taskId payload).get "clarify_schema" =
      payload.get "clarify_schema" := Dict.get_merge hkey
  intro fields hfields
  rw [schemaFields, hschema] at hfields
  exact h fields hfields

theorem Run.choicesGiven (h : Run env (Timely env) s log) :
    ∀ id, ∀ opening ∈ openings env id log, ChoicesGiven opening.2 := by
  induction h with
  | start => exact fun _ _ hopening => absurd hopening List.not_mem_nil
  | @next s s' log action outcome hrun hguard hstep ih =>
      intro id opening hopening
      rw [openings_append, List.mem_append] at hopening
      rcases hopening with hopening | hopening
      · exact ih id opening hopening
      · cases action with
        | openRequest requestId sessionKey taskId toolUseId payload =>
            rw [Broker.step] at hstep
            split_ifs at hstep
            rw [Option.some.injEq, Broker.openRequest] at hstep
            dsimp only at hstep
            split at hstep
            · cases hstep
              exact absurd hopening List.not_mem_nil
            · split at hstep
              · cases hstep
                exact absurd hopening List.not_mem_nil
              · split at hstep
                · cases hstep
                  exact absurd hopening List.not_mem_nil
                · cases hstep
                  simp only [openings, List.filterMap_cons, List.filterMap_nil] at hopening
                  split_ifs at hopening with hid
                  · rw [List.mem_singleton.mp hopening]
                    exact choicesGiven_publicPayload hguard
                  · exact absurd hopening List.not_mem_nil
        | resolve => exact absurd hopening List.not_mem_nil
        | wait => exact absurd hopening List.not_mem_nil
        | wake => exact absurd hopening List.not_mem_nil
        | cancelWaiter => exact absurd hopening List.not_mem_nil
        | cancelRequest => exact absurd hopening List.not_mem_nil
        | cancelTask => exact absurd hopening List.not_mem_nil

theorem resolveCompleted_onlyUserInput {sessionKey : Str} {fields : Dict}
    {entry : CompletedUserInput} (hchoices : ChoicesGiven entry.payload) {raised : Raised}
    (h : Broker.resolveCompleted env sessionKey fields entry = .raised raised) :
    raised.isUserInput = true := by
  rw [Broker.resolveCompleted] at h
  split at h
  · cases h
    rfl
  · split at h
    · rename_i error herror
      cases h
      exact validateUserInputFields_onlyUserInput env hchoices fields _ herror
    · split at h
      · cases h
        rfl
      · cases h

theorem resolvePending_onlyUserInput {sessionKey requestId : Str} {fields : Dict}
    (hchoices : ChoicesGiven request.payload)
    (hlate : request.future = .cancelled → request.sessionKey = sessionKey →
      ∀ answers, validateUserInputFields env request.payload fields ≠ .ok answers)
    {raised : Raised}
    (h : s.resolvePending env sessionKey requestId fields request = (s', .raised raised)) :
    raised.isUserInput = true := by
  rw [Broker.resolvePending] at h
  split at h
  · cases h
    rfl
  · rename_i howner
    rw [not_not] at howner
    split at h
    · rename_i error herror
      cases h
      exact validateUserInputFields_onlyUserInput env hchoices fields _ herror
    · rename_i answers hanswers
      split at h
      · split at h
        · cases h
          rfl
        · cases h
      · rename_i hcancelled
        exact absurd hanswers (hlate hcancelled howner answers)
      · cases h

/-- In a timely run a call of `resolve` raises nothing but the broker's own errors. -/
theorem Run.errors (h : Run env (Timely env) s log) :
    ∀ raised ∈ resolveErrors log, raised.isUserInput = true := by
  induction h with
  | start => exact fun _ hraised => absurd hraised List.not_mem_nil
  | @next s s' log action outcome hrun hguard hstep ih =>
      intro raised hraised
      rw [resolveErrors, List.filterMap_append, List.mem_append] at hraised
      rcases hraised with hraised | hraised
      · exact ih raised hraised
      · cases action with
        | resolve sessionKey requestId fields =>
            have hinv := hrun.inv
            have hchoices := hrun.choicesGiven
            cases outcome with
            | raised other =>
                rw [List.filterMap_cons, List.filterMap_nil] at hraised
                rw [List.mem_singleton.mp hraised]
                have hresolve := Option.some.inj hstep
                rw [Broker.resolve] at hresolve
                split at hresolve
                · rename_i entry hentry
                  obtain ⟨request, hlookup, -, hpayload, -⟩ :=
                    hinv.completed _ (Keyed.mem_of_lookup hentry)
                  have hmem := hchoices requestId (request.sessionKey, request.payload)
                    (by rw [(hinv.request _ request hlookup).1]; exact List.mem_singleton_self _)
                  dsimp only at hmem
                  rw [hpayload] at hmem
                  exact resolveCompleted_onlyUserInput hmem (Prod.mk.inj hresolve).2
                · split at hresolve
                  · cases hresolve
                    rfl
                  · rename_i request hrequest
                    have hlookup := lookup_of_pendingRequest hrequest
                    have hmem := hchoices requestId (request.sessionKey, request.payload)
                      (by rw [(hinv.request _ request hlookup).1]; exact List.mem_singleton_self _)
                    exact resolvePending_onlyUserInput hmem (hguard request hrequest) hresolve
            | opened => exact absurd hraised List.not_mem_nil
            | resolved => exact absurd hraised List.not_mem_nil
            | delivered => exact absurd hraised List.not_mem_nil
            | quiet => exact absurd hraised List.not_mem_nil
        | openRequest => exact absurd hraised List.not_mem_nil
        | wait => exact absurd hraised List.not_mem_nil
        | wake => exact absurd hraised List.not_mem_nil
        | cancelWaiter => exact absurd hraised List.not_mem_nil
        | cancelRequest => exact absurd hraised List.not_mem_nil
        | cancelTask => exact absurd hraised List.not_mem_nil

/-- In every run whose steps are timely, a request gets one answer at most, from its owner, and it is
what is delivered and replayed; every other call of `resolve` raises one of the broker's own errors. -/
theorem answers_in_timely_runs (h : Run env (Timely env) s log) :
    Answered env log ∧ ∀ raised ∈ resolveErrors log, raised.isUserInput = true :=
  ⟨h.inv.answered, h.errors⟩

theorem late_answer_escapes {guard : Broker → Action → Prop} {sessionKey : Str} {fields : Dict}
    {answers : Answers} (h : Run env guard s log) (hrequest : s.pendingRequest id = some request)
    (hcancelled : request.future = .cancelled)
    (howner : request.sessionKey = Session.canonicalizeSessionKey env.lower sessionKey)
    (hvalid : validateUserInputFields env request.payload fields = .ok answers) :
    s.resolve env sessionKey id fields = (s, .raised .cancelled) := by
  have hnone : s.completed.lookup id = none := by
    cases hfound : s.completed.lookup id with
    | none => rfl
    | some entry =>
        obtain ⟨other, hlookup, -, -, hresult⟩ := h.inv.completed _ (Keyed.mem_of_lookup hfound)
        have heq := (lookup_of_pendingRequest hrequest).symm.trans hlookup
        rw [Option.some.injEq] at heq
        rw [← heq, hcancelled] at hresult
        cases hresult
  rw [Broker.resolve, hnone, hrequest]
  show s.resolvePending env _ id fields request = _
  rw [Broker.resolvePending, if_neg (not_not.mpr howner), hvalid, hcancelled]

end

/-! ### A late answer -/

def asciiRuntime : Runtime where
  lower := List.map Char.toLower
  int := fun _ => none
  repr := fun text => '\'' :: (text ++ ['\''])
  str := fun _ => []

def onePayload : Dict :=
  [("clarify_schema".toList, .obj [("fields".toList, .arr [.obj [("name".toList, .str ['a'])]])])]

theorem choicesGiven_onePayload : ChoicesGiven onePayload := by
  intro fields hfields
  have heq : schemaFields onePayload = .ok [[("name".toList, .str ['a'])]] := rfl
  rw [heq, Except.ok.injEq] at hfields
  rw [← hfields]
  decide

def openOne : Action := .openRequest ['r'] ['k'] ['t'] ['u'] onePayload

def answerOne : Action := .resolve ['k'] ['r'] [(['a'], .str ['x'])]

theorem Run.extend {guard : Broker → Action → Prop} {env : Runtime} {s s' : Broker}
    {log : List Entry} (h : Run env guard s log) (action : Action) (hguard : guard s action)
    {outcome : Outcome} (hstep : s.step env action = some (s', outcome)) :
    Run env guard s' (log ++ [(action, outcome)]) := h.next hguard hstep

theorem answer_in_time : ∃ s log, Run asciiRuntime (Timely asciiRuntime) s log ∧
    answersOf false ['r'] log = [[(['a'], .text ['x'])]] ∧
    deliveries ['r'] log = [[(['a'], .text ['x'])]] ∧
    Answered asciiRuntime log ∧ ∀ raised ∈ resolveErrors log, raised.isUserInput = true := by
  have hstart : Run asciiRuntime (Timely asciiRuntime) {} [] := .start
  have hopen := hstart.extend openOne choicesGiven_onePayload rfl
  have hwait := hopen.extend (.wait 0 ['r']) trivial rfl
  have hanswer := hwait.extend answerOne (fun request hrequest hcancelled => by
    cases hrequest
    cases hcancelled) rfl
  have hwake := hanswer.extend (.wake 0) trivial rfl
  exact ⟨_, _, hwake, by decide, by decide, answers_in_timely_runs hwake⟩

theorem answer_too_late : ∃ s log, Run asciiRuntime (fun _ _ => True) s log ∧
    Raised.cancelled ∈ resolveErrors log ∧ Raised.cancelled.isUserInput = false := by
  have hstart : Run asciiRuntime (fun _ _ => True) {} [] := .start
  have hopen := hstart.extend openOne trivial rfl
  have hwait := hopen.extend (.wait 0 ['r']) trivial rfl
  have hcancel := hwait.extend (.cancelWaiter 0) trivial rfl
  have hlate := hcancel.extend answerOne trivial rfl
  exact ⟨_, _, hlate, by decide, rfl⟩

end OpenStarry.UserInput
