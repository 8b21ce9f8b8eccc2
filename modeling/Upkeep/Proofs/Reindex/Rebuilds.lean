import Upkeep.Proofs.Reindex.Conduct

/-!
# What an automatic run rebuilds

An automatic run chooses some of its candidates, and then it attempts these one after the other.
So it begins rebuilds in the order of its choice, and none once a rebuild has failed: the error of
that rebuild is what the run ends with.

## Main Definitions

* `Eligible` — what makes an index worth a rebuild.
* `Coordinator.selection` — a run up to its choice.
* `begun`, `rebuildsOf` — the rebuilds in a transcript.
* `Coordinator.Attempted` — the courses of attempts, one after the other.
* `Halts` — after a failed rebuild there is none.
* `Orderly` — what a run rebuilds, as compared with its choice.

## Main Statements

* `Coordinator.ends_selection` — every choice is one of few eligible candidates.
* `Coordinator.attempted_performAll` — the attempts of a run.
* `Coordinator.orderly_automatic` — what a run rebuilds.
-/

namespace Upkeep

/-! ### Eligible indexes -/

/-- An index is worth a rebuild: valid, nobody's leftover, neither too small nor too large, and
bloated enough. -/
structure Eligible (thresholds : Thresholds) (index : Index) : Prop where
  valid : index.valid = true
  notLeftover : index.isLeftover = false
  large : thresholds.minimumSize ≤ index.size
  small : index.size ≤ thresholds.maximumSize
  bloated : ∃ ratio, index.relativeBloat = some ratio ∧ thresholds.minimumBloat.toFloat ≤ ratio

theorem Thresholds.eligible_of_accept {thresholds : Thresholds} {index : Index}
    (h : thresholds.accept index = true) : Eligible thresholds index := by
  simp only [accept, Bool.and_eq_true, Bool.not_eq_true', decide_eq_true_eq] at h
  obtain ⟨⟨⟨hvalid, hleftover⟩, hlarge, hsmall⟩, hbloat⟩ := h
  refine ⟨hvalid, hleftover, hlarge, hsmall, ?_⟩
  split at hbloat
  · next ratio hratio => exact ⟨ratio, hratio, of_decide_eq_true hbloat⟩
  · cases hbloat

/-! ### Rebuilds in a transcript -/

/-- Whether the request belongs to a rebuild. -/
def Service.Request.isRebuild : Service.Request → Bool
  | .beginRebuild _ _ | .endRebuild _ _ => true
  | _ => false

/-- What a transcript says of rebuilds. -/
def rebuildsOf (t : Transcript Service) : Transcript Service :=
  t.filter fun exchange => exchange.request.isRebuild

/-- The index whose rebuild was begun. -/
def Exchange.begun? (exchange : Exchange Service) : Option Index :=
  match exchange.request with
  | .beginRebuild _ index => some index
  | _ => none

/-- The indexes whose rebuilds were begun, in this order. -/
def begun (t : Transcript Service) : List Index := t.filterMap Exchange.begun?

@[simp] theorem rebuildsOf_append (t t' : Transcript Service) :
    rebuildsOf (t ++ t') = rebuildsOf t ++ rebuildsOf t' :=
  List.filter_append ..

@[simp] theorem begun_append (t t' : Transcript Service) : begun (t ++ t') = begun t ++ begun t' :=
  List.filterMap_append

/-- Rebuilds are begun where a transcript says something of rebuilds. -/
theorem begun_rebuildsOf (t : Transcript Service) : begun (rebuildsOf t) = begun t := by
  rw [begun, rebuildsOf, List.filterMap_filter, begun]
  refine List.filterMap_congr fun exchange _ => ?_
  obtain ⟨r, answer⟩ := exchange
  cases r <;> rfl

theorem begun_eq_nil {t : Transcript Service} (h : rebuildsOf t = []) : begun t = [] := by
  rw [← begun_rebuildsOf, h]
  rfl

/-- Once a rebuild has failed, no rebuild is begun any more, and its error is the result. -/
def Halts {α : Type} (t : Transcript Service) (result : Except Error α) : Prop :=
  ∀ t₁ worker index error t₂, t = t₁ ++ ⟨.endRebuild worker index, .error error⟩ :: t₂ →
    begun t₂ = [] ∧ result = .error (.rebuildFailed index.identifier error)

section Halts

variable {α β : Type} {t t' : Transcript Service}

theorem halts_of_rebuildsOf_eq_nil (h : rebuildsOf t = []) (result : Except Error α) :
    Halts t result := by
  rintro t₁ worker index error t₂ rfl
  rw [rebuildsOf_append] at h
  cases (List.append_eq_nil_iff.1 h).2

theorem Halts.map {result : Except Error α} (h : Halts t result) (f : α → β) :
    Halts t (result.map f) := by
  intro t₁ worker index error t₂ ht
  obtain ⟨hnone, rfl⟩ := h t₁ worker index error t₂ ht
  exact ⟨hnone, rfl⟩

/-- What goes on has had no failed rebuild. -/
theorem Halts.append {value : α} {result : Except Error β}
    (h : Halts t (.ok value : Except Error α)) (h' : Halts t' result) : Halts (t ++ t') result := by
  intro t₁ worker index error t₂ ht
  rcases append_eq_append_cons_cases ht with ⟨c, hfailed, -⟩ | ⟨c, -, hrest⟩
  · obtain ⟨-, hresult⟩ := h _ worker index error _ hfailed
    cases hresult
  · exact h' _ worker index error _ hrest

end Halts

namespace Coordinator

variable {coordinator : Coordinator} {index : Index} {indexes : List Index}
  {t : Transcript Service}

/-! ### The choice -/

/-- A run up to its choice: the leftovers are dropped, and the candidates are judged by the time
after that. -/
def selection (coordinator : Coordinator) (candidates : List Index) (maximum : Nat) :
    Task (List Index) := do
  let _ ← coordinator.cleanup candidates
  let now ← Service.ask .readClock
  Selection.select coordinator.settings.thresholds candidates now maximum

/-- A run attempts what it has chosen. -/
theorem automatic_eq_selection_bind (coordinator : Coordinator) (candidates : List Index)
    (maximum : Nat) :
    coordinator.automatic candidates maximum =
      coordinator.selection candidates maximum >>= fun chosen =>
        (liftM (Service.log (selectedEvent chosen.length maximum)) : Task Unit) >>= fun _ =>
          coordinator.performAll chosen := by
  simp only [automatic, selection, bind_assoc]

/-- Requests that belong to no rebuild. -/
private theorem settles_dropAll (coordinator : Coordinator) (indexes : List Index) :
    (coordinator.dropAll indexes).Settles fun r => r.isRebuild = false := by
  induction indexes with
  | nil => exact Task.settles_pure _
  | cons index rest ih =>
      exact .bind (settles_drop index ⟨fun _ => rfl, fun _ _ _ => rfl, fun _ => rfl⟩
        (fun _ _ => rfl) fun _ _ => rfl) fun _ => .bind ih fun _ => Task.settles_pure _

/-- What is left after the recent ones are left out is in the same order as before. -/
private theorem keeps_withoutRecent_undisturbed (thresholds : Thresholds) (now : UInt64)
    (indexes : List Index) :
    (Selection.withoutRecent thresholds now indexes).Keeps undisturbed
      (fun _ r => r.isRebuild = false) (fun fresh _ => fresh.Sublist indexes) (fun _ _ => True)
      (fun _ _ => False) () := by
  induction indexes with
  | nil => exact List.Sublist.slnil
  | cons index rest ih =>
      refine Task.keeps_bind.2 (Task.keeps_attempt.2 ⟨rfl, fun answer _ => ?_, False.elim⟩)
      match answer with
      | .error error => exact trivial
      | .ok history =>
          show Task.Keeps _ _ _ _ _ (if _ then _ else _) _
          split
          · refine Task.keeps_bind.2 (Task.keeps_liftM.2 (Service.keeps_log.2
              ⟨rfl, fun _ _ => ?_, False.elim⟩))
            exact ih.weaken fun fresh _ hfresh => hfresh.cons index
          · exact Task.keeps_bind.2 (ih.weaken fun fresh _ hfresh => hfresh.cons_cons index)

/-- **A choice** comes to an end without any rebuild, and it is one of few eligible candidates. -/
theorem ends_selection {σ : Type} (coordinator : Coordinator) (candidates : List Index)
    (maximum : Nat) (answer : (r : Service.Request) → σ → Service.Answer r × σ)
    (elapse : Duration → σ → σ) (s : σ) :
    (∃ selected, ((coordinator.selection candidates maximum).toJob.run answer elapse s).1 =
        .ok selected ∧
      ∀ chosen, selected = .ok chosen → chosen.length ≤ maximum ∧
        ∀ index ∈ chosen, Eligible coordinator.settings.thresholds index) ∧
      rebuildsOf ((coordinator.selection candidates maximum).toJob.transcript answer elapse s) =
        [] := by
  have hkeeps : (coordinator.selection candidates maximum).Keeps undisturbed
      (fun _ r => r.isRebuild = false)
      (fun chosen _ => chosen.length ≤ maximum ∧
        ∀ index ∈ chosen, Eligible coordinator.settings.thresholds index)
      (fun _ _ => True) (fun _ _ => False) () := by
    refine Task.keeps_bind.2 ((Task.settles_iff_keeps.1
      (settles_dropAll coordinator _)).weaken fun _ _ _ => ?_)
    refine Task.keeps_bind.2 (Task.keeps_liftM.2 (Service.keeps_ask.2
      ⟨rfl, fun now _ => ?_, False.elim⟩))
    refine Task.keeps_bind.2 ((keeps_withoutRecent_undisturbed _ now _).weaken
      fun fresh _ hfresh => ?_)
    refine ⟨List.length_take_le .., fun index hm => Thresholds.eligible_of_accept ?_⟩
    exact (List.mem_filter.1 (hfresh.subset ((rank_subperm maximum fresh).subset hm))).2
  have hjob : (coordinator.selection candidates maximum).toJob.Keeps undisturbed
      (fun _ r => r.isRebuild = false)
      (fun selected _ => ∀ chosen, selected = .ok chosen → chosen.length ≤ maximum ∧
        ∀ index ∈ chosen, Eligible coordinator.settings.thresholds index)
      (fun _ _ => False) () := by
    refine Job.Keeps.mono hkeeps (fun _ _ hr => hr) ?_ fun _ _ hs => hs
    rintro _ _ h chosen rfl
    exact h
  obtain ⟨hselected, hrequests⟩ := Job.ends_undisturbed hjob answer elapse s
  refine ⟨hselected, List.filter_eq_nil_iff.2 fun exchange hm => ?_⟩
  rw [hrequests exchange hm]
  exact Bool.false_ne_true

/-! ### Attempts -/

section Parts

variable {α : Type}

@[simp] theorem rebuildsOf_loggedIfFailed (event : Error → Event) (result : Except Error α) :
    rebuildsOf (loggedIfFailed event result) = [] := by
  cases result <;> rfl

@[simp] theorem rebuildsOf_announced (coordinator : Coordinator) (action : Action)
    (told : Except Error Unit) : rebuildsOf (coordinator.announced action told) = [] := by
  unfold announced notified
  split
  · exact rebuildsOf_loggedIfFailed _ told
  · rfl
  · rfl

@[simp] theorem rebuildsOf_reported (coordinator : Coordinator) (action : Action)
    (told : Except Error Unit) : rebuildsOf (coordinator.reported action told) = [] := by
  unfold reported notified
  split
  · exact rebuildsOf_loggedIfFailed _ told
  · rfl
  · rfl

@[simp] theorem rebuildsOf_concluded (coordinator : Coordinator) (index : Index)
    (replies : Replies) : rebuildsOf (replies.concluded coordinator index) = [] := by
  unfold Replies.concluded
  split
  · exact rebuildsOf_loggedIfFailed _ _
  · rfl
  · rfl

@[simp] theorem rebuildsOf_returned (key : String) (token : Lease.Token)
    (released : Except Error Bool) : rebuildsOf (returned key token released) = [] := by
  unfold returned
  split <;> rfl

/-- An attempt that is seen through begins and ends one rebuild. -/
theorem rebuildsOf_seenThrough (coordinator : Coordinator) (index : Index) (replies : Replies) :
    rebuildsOf (replies.seenThrough coordinator index) =
      [⟨.beginRebuild coordinator.worker index, replies.length?⟩,
        ⟨.endRebuild coordinator.worker index, replies.rebuilt⟩] := by
  simp only [Replies.seenThrough, Replies.untilUpdate, rebuildsOf_append, rebuildsOf_announced,
    rebuildsOf_loggedIfFailed, rebuildsOf_reported, rebuildsOf_concluded]
  rfl

end Parts

/-- What an attempt says of rebuilds: nothing, or the beginning and the end of one on its index. -/
theorem Course.rebuilds {result : Except Error Performed} (h : Course coordinator index t result) :
    (rebuildsOf t = [] ∧ ∀ performed, result = .ok performed → performed = .skipped) ∨
      ∃ length? rebuilt, rebuildsOf t =
          [⟨.beginRebuild coordinator.worker index, length?⟩,
            ⟨.endRebuild coordinator.worker index, rebuilt⟩] ∧
        (∀ error, rebuilt = .error error →
          result = .error (.rebuildFailed index.identifier error)) ∧
        ∀ performed, result = .ok performed → performed ≠ .skipped := by
  cases h with
  | unavailable error => exact .inl ⟨rfl, nofun⟩
  | held => exact .inl ⟨rfl, fun _ h => (Except.ok.inj h).symm⟩
  | unrecorded token started id error released =>
      refine .inl ⟨?_, nofun⟩
      rw [rebuildsOf_append, rebuildsOf_returned]
      rfl
  | seenThrough token replies released =>
      refine .inr ⟨replies.length?, replies.rebuilt, ?_, ?_, ?_⟩
      · rw [rebuildsOf_append, rebuildsOf_append, rebuildsOf_seenThrough, rebuildsOf_returned]
        rfl
      · intro error herror
        simp only [Replies.verdict, herror]
        rfl
      · rintro performed hperformed rfl
        cases hverdict : replies.verdict index with
        | ok action => rw [hverdict] at hperformed; cases hperformed
        | error error => rw [hverdict] at hperformed; cases hperformed

theorem Course.halts {result : Except Error Performed} (h : Course coordinator index t result) :
    Halts t result := by
  rcases h.rebuilds with ⟨hnone, -⟩ | ⟨length?, rebuilt, hsome, hfailed, -⟩
  · exact halts_of_rebuildsOf_eq_nil hnone result
  · rintro t₁ worker other error t₂ rfl
    have hend : rebuildsOf (t₁ ++ ⟨.endRebuild worker other, .error error⟩ :: t₂) =
        rebuildsOf t₁ ++ ⟨.endRebuild worker other, .error error⟩ :: rebuildsOf t₂ :=
      rebuildsOf_append _ _
    rw [hend] at hsome
    -- There is one beginning and then one end, so the failed end is the last thing there is.
    rcases List.append_eq_cons_iff.1 hsome with ⟨-, hfirst⟩ | ⟨middle, -, hrest⟩
    · cases hfirst
    · rcases List.append_eq_cons_iff.1 hrest.symm with ⟨-, hlast⟩ | ⟨more, -, hmore⟩
      · obtain ⟨heq, hnone⟩ := List.cons.inj hlast
        cases heq
        exact ⟨begun_eq_nil hnone, hfailed error rfl⟩
      · cases (List.append_eq_nil_iff.1 hmore.symm).2

/-- The transcripts of attempts one after the other, up to the first that fails, with their
results. -/
inductive Attempted (coordinator : Coordinator) :
    List Index → Transcript Service → Except Error (List Performed) → Prop
  | nil : Attempted coordinator [] [] (.ok [])
  /-- An attempt has failed, and no other follows. -/
  | failed {index : Index} {rest : List Index} {t : Transcript Service} {error : Error}
      (first : Course coordinator index t (.error error)) :
      Attempted coordinator (index :: rest) t (.error error)
  /-- An attempt has not failed, and others follow. -/
  | cons {index : Index} {rest : List Index} {t t' : Transcript Service} {performed : Performed}
      {result : Except Error (List Performed)} (first : Course coordinator index t (.ok performed))
      (others : Attempted coordinator rest t' result) :
      Attempted coordinator (index :: rest) (t ++ t') (result.map (performed :: ·))

namespace Attempted

variable {result : Except Error (List Performed)}

theorem halts (h : Attempted coordinator indexes t result) : Halts t result := by
  induction h with
  | nil => exact halts_of_rebuildsOf_eq_nil rfl _
  | failed first => exact first.halts.map fun performed => [performed]
  | cons first others ih => exact first.halts.append (ih.map _)

theorem begun_sublist (h : Attempted coordinator indexes t result) : (begun t).Sublist indexes := by
  have hone : ∀ {index : Index} {t : Transcript Service} {result : Except Error Performed},
      Course coordinator index t result → (begun t).Sublist [index] := by
    intro index t result first
    rw [← begun_rebuildsOf]
    rcases first.rebuilds with ⟨hnone, -⟩ | ⟨length?, rebuilt, hsome, -⟩
    · rw [hnone]
      exact List.nil_sublist _
    · rw [hsome]
      exact List.Sublist.refl _
  induction h with
  | nil => exact List.Sublist.slnil
  | failed first => exact (hone first).trans (List.singleton_sublist.2 (List.mem_cons_self ..))
  | cons first others ih =>
      rw [begun_append]
      exact (hone first).append ih

/-- If no attempt fails then each index is attempted, and those are rebuilt whose lease nobody
else had. -/
theorem begun_eq {performed : List Performed}
    (h : Attempted coordinator indexes t (.ok performed)) :
    performed.length = indexes.length ∧
      begun t = ((indexes.zip performed).filter fun attempt => attempt.2 ≠ .skipped).map
        Prod.fst := by
  generalize hresult : Except.ok performed = result at h
  induction h generalizing performed with
  | nil =>
      cases hresult
      exact ⟨rfl, rfl⟩
  | failed first => cases hresult
  | @cons index rest t t' one result first others ih =>
      match result with
      | .error error => cases hresult
      | .ok more =>
          cases hresult
          obtain ⟨hlength, hbegun⟩ := ih rfl
          refine ⟨congrArg Nat.succ hlength, ?_⟩
          rw [begun_append, hbegun, ← begun_rebuildsOf t, List.zip_cons_cons, List.filter_cons]
          rcases first.rebuilds with ⟨hnone, hskipped⟩ | ⟨length?, rebuilt, hsome, -, hdone⟩
          · rw [hnone, if_neg (by simpa using hskipped one rfl)]
            rfl
          · rw [hsome, if_pos (by simpa using hdone one rfl)]
            rfl

end Attempted

/-- **The attempts of a run** come to an end, one after the other. -/
theorem attempted_performAll {σ : Type} (coordinator : Coordinator) (indexes : List Index)
    (answer : (r : Service.Request) → σ → Service.Answer r × σ) (elapse : Duration → σ → σ)
    (s : σ) :
    ∃ result, ((coordinator.performAll indexes).toJob.run answer elapse s).1 = .ok result ∧
      Attempted coordinator indexes
        ((coordinator.performAll indexes).toJob.transcript answer elapse s) result := by
  induction indexes generalizing s with
  | nil => exact ⟨.ok [], rfl, .nil⟩
  | cons index rest ih =>
      rw [performAll]
      rcases Task.ends_of_keeps (keeps_perform_recording coordinator index) answer elapse s with
        ⟨performed, hrun, hcourse⟩ | ⟨error, hrun, hcourse⟩
      · obtain ⟨hruns, htranscript⟩ := Task.run_bind_of_ok (fun result => do
          let results ← coordinator.performAll rest
          return result :: results) hrun
        obtain ⟨result, hrest, hattempted⟩ :=
          ih ((coordinator.perform index).toJob.run answer elapse s).2
        obtain ⟨hresult, hsame⟩ :=
          Task.run_bind_pure (g := fun results => performed :: results) hrest
        rw [hruns, htranscript, hsame]
        exact ⟨_, hresult, .cons hcourse hattempted⟩
      · obtain ⟨hruns, htranscript⟩ := Task.run_bind_of_error (fun result => do
          let results ← coordinator.performAll rest
          return result :: results) hrun
        rw [htranscript]
        exact ⟨.error error, hruns, .failed hcourse⟩

end Coordinator

/-! ### Runs -/

/-- What a run rebuilds, as compared with its choice: its transcript, and the result of the run. -/
structure Orderly (thresholds : Thresholds) (maximum : Nat) (selected : Except Error (List Index))
    (t : Transcript Service) (result : Except Error (List Performed)) : Prop where
  /-- Rebuilds are begun in the order of the choice, and of nothing else. -/
  sublist : ∀ chosen, selected = .ok chosen → (begun t).Sublist chosen
  few : (begun t).length ≤ maximum
  eligible : ∀ index ∈ begun t, Eligible thresholds index
  /-- No rebuild follows one that has failed, whose error is the result. -/
  halts : Halts t result
  /-- A run whose choice has failed does nothing else. -/
  unselected : ∀ error, selected = .error error → begun t = [] ∧ result = .error error
  /-- A run that does not fail has rebuilt whatever it has chosen, but for what others had a
  lease for. -/
  thorough : ∀ chosen performed, selected = .ok chosen → result = .ok performed →
    performed.length = chosen.length ∧
      begun t = ((chosen.zip performed).filter fun attempt => attempt.2 ≠ .skipped).map Prod.fst

namespace Coordinator

/-- **What a run rebuilds**, in any world: it comes to an end, and it keeps to its choice. -/
theorem orderly_automatic {σ : Type} (coordinator : Coordinator) (candidates : List Index)
    (maximum : Nat) (answer : (r : Service.Request) → σ → Service.Answer r × σ)
    (elapse : Duration → σ → σ) (s : σ) :
    ∃ selected result,
      ((coordinator.selection candidates maximum).toJob.run answer elapse s).1 = .ok selected ∧
        ((coordinator.automatic candidates maximum).toJob.run answer elapse s).1 = .ok result ∧
          Orderly coordinator.settings.thresholds maximum selected
            ((coordinator.automatic candidates maximum).toJob.transcript answer elapse s)
              result := by
  obtain ⟨⟨selected, hselected, hchosen⟩, hnone⟩ :=
    coordinator.ends_selection candidates maximum answer elapse s
  rw [automatic_eq_selection_bind]
  match selected with
  | .error error =>
      obtain ⟨hrun, htranscript⟩ := Task.run_bind_of_error _ hselected
      have hbegun := begun_eq_nil hnone
      refine ⟨.error error, .error error, hselected, hrun, ?_⟩
      rw [htranscript]
      exact {
        sublist := nofun
        few := by rw [hbegun]; exact Nat.zero_le _
        eligible := by rw [hbegun]; exact nofun
        halts := halts_of_rebuildsOf_eq_nil hnone _
        unselected := by
          rintro other ⟨⟩
          exact ⟨hbegun, rfl⟩
        thorough := nofun }
  | .ok chosen =>
      obtain ⟨hrun, htranscript⟩ := Task.run_bind_of_ok _ hselected
      obtain ⟨hfew, heligible⟩ := hchosen chosen rfl
      -- Between the choice and the first attempt there is an entry in the log.
      set chose := ((coordinator.selection candidates maximum).toJob.run answer elapse s).2
      set entry : Exchange Service := ⟨.log (selectedEvent chosen.length maximum), ()⟩
      obtain ⟨result, hattempts, hattempted⟩ := coordinator.attempted_performAll chosen answer
        elapse (answer (.log (selectedEvent chosen.length maximum)) chose).2
      have hquiet : rebuildsOf ((coordinator.selection candidates maximum).toJob.transcript answer
          elapse s ++ [entry]) = [] := by
        rw [rebuildsOf_append, hnone]
        rfl
      have hbegun : ∀ t, begun ((coordinator.selection candidates maximum).toJob.transcript answer
          elapse s ++ [entry] ++ t) = begun t := fun t => by
        rw [begun_append, begun_eq_nil hquiet, List.nil_append]
      refine ⟨.ok chosen, result, hselected, hrun ▸ hattempts, ?_⟩
      rw [htranscript.trans (List.append_cons _ entry _)]
      have hsublist := hattempted.begun_sublist
      refine ⟨?_, ?_, ?_, (halts_of_rebuildsOf_eq_nil hquiet (.ok ())).append hattempted.halts,
        nofun, ?_⟩
      · rintro _ ⟨⟩
        rwa [hbegun]
      · rw [hbegun]
        exact hsublist.length_le.trans hfew
      · rw [hbegun]
        exact fun index hm => heligible index (hsublist.subset hm)
      · rintro _ performed ⟨⟩ rfl
        rw [hbegun]
        exact hattempted.begun_eq

end Coordinator

end Upkeep
