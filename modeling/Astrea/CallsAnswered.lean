/-
# What the caller of a function hears

The functions of the client cast what they have parsed to the types of their responses and check
nothing.  The casts are right: a function resolves only to a value of its type, read from a
success of its route, and what it throws otherwise is a refusal that has changed nothing but the
record of a failure, or says no more than that no reply has come back: then the service may have
done all that one of its replies says (`calls_answered`).
-/
import Astrea.Answers
import Astrea.CallsArrive

open Interleave
open Utf16 (CodeUnits)
open JsonText (Numbers Value)
open Service (Answers Body Codec Deps Done Response Route Settled object string)

namespace CoreGo

variable {ν : Type}

/-! ## Objects and their types -/

section
variable {N : Numbers ν}

theorem readBack_object (fields : List (String × Value ν)) :
    (object fields).readBack N
      = .obj (fields.map fun f => (Utf16.ofString f.1, f.2.readBack N)) := by
  have hfields : ∀ l : List (String × Value ν),
      JsonText.readBackFields N (l.map fun f => (Utf16.ofString f.1, f.2))
        = l.map fun f => (Utf16.ofString f.1, f.2.readBack N) := by
    intro l
    induction l with
    | nil => rfl
    | cons f l ih => rw [List.map_cons, JsonText.readBackFields, ih, List.map_cons]
  rw [object, JsonText.Value.readBack, hfields]

/-- Each field of an object is found under its name, when no two have the same. -/
theorem property_object {fields : List (String × Value ν)} (hnodup : (fields.map (·.1)).Nodup)
    {f : String × Value ν} (hf : f ∈ fields) :
    property f.1 (fields.map fun f => (Utf16.ofString f.1, f.2.readBack N))
      = some (f.2.readBack N) := by
  rw [property, ← List.map_reverse, List.find?_map]
  cases hfind : fields.reverse.find? ((fun p : CodeUnits × Value ν =>
      decide (p.1 = Utf16.ofString f.1)) ∘ fun f => (Utf16.ofString f.1, f.2.readBack N)) with
  | none =>
      have hnot := List.find?_eq_none.mp hfind f (List.mem_reverse.mpr hf)
      exact absurd (decide_eq_true rfl) hnot
  | some g =>
      have hname : g.1 = f.1 :=
        Utf16.ofString_injective (of_decide_eq_true (List.find?_eq_some_iff_append.mp hfind).1)
      have hg : g ∈ fields := List.mem_reverse.mp (List.mem_of_find?_eq_some hfind)
      rw [List.inj_on_of_nodup_map hnodup hg hf hname]
      rfl

theorem admitsFields_of_forall {props : List (CodeUnits × Value ν)}
    {types : List (String × TsType)}
    (h : ∀ t ∈ types, ∃ v, property t.1 props = some v ∧ t.2.admits v = true) :
    admitsFields types props = true := by
  induction types with
  | nil => rfl
  | cons t types ih =>
      rw [List.forall_mem_cons] at h
      obtain ⟨⟨v, hv, ht⟩, hrest⟩ := h
      rw [admitsFields, hv, ih hrest, Bool.and_true]
      exact ht

/-- An object with the fields of an interface, each of its type. -/
theorem admits_object {types : List (String × TsType)} {fields : List (String × Value ν)}
    (hnodup : (types.map (·.1)).Nodup)
    (h : List.Forall₂ (fun t f => t.1 = f.1 ∧ t.2.admits (f.2.readBack N) = true) types fields) :
    (TsType.interface types).admits ((object fields).readBack N) = true := by
  have hnames : types.map (·.1) = fields.map (·.1) := by
    rw [← List.forall₂_eq_eq_eq, List.forall₂_map_left_iff, List.forall₂_map_right_iff]
    exact h.imp fun _ _ hf => hf.1
  rw [hnames] at hnodup
  rw [readBack_object, TsType.admits]
  refine admitsFields_of_forall fun t ht => ?_
  obtain ⟨i, hi, rfl⟩ := List.getElem_of_mem ht
  have hj : i < fields.length := h.length_eq ▸ hi
  obtain ⟨hname, htype⟩ := h.get hi hj
  exact ⟨_, hname ▸ property_object hnodup (List.getElem_mem hj), htype⟩

end

/-! ## Answers and their types -/

section
variable {w : Codec ν} {h : List Done}

theorem admits_int64 (n : Int64) :
    TsType.number.admits ((Value.num (w.ofInt64 n)).readBack w.numbers) = true := by
  rw [Value.readBack, if_pos (w.isFinite_ofInt64 n)]
  rfl

/-- The winners of a response have their declared type. -/
theorem admits_winners (winners : List (Int64 × Service.RowId × Service.RowId × Service.Address)) :
    (TsType.array releaseWinner).admits
      ((Value.arr (winners.map w.winner)).readBack w.numbers) = true := by
  rw [Value.readBack, TsType.admits, readBackItems_map, List.all_map, List.all_eq_true]
  rintro ⟨rank, teamID, teamMemberID, address⟩ -
  exact admits_object (by decide) (.cons ⟨rfl, admits_int64 rank⟩
    (.cons ⟨rfl, rfl⟩ (.cons ⟨rfl, rfl⟩ (.cons ⟨rfl, rfl⟩ .nil))))

/-- The type of a route's successes; the health check has none. -/
def successType : Route → Option TsType
  | .healthz => none
  | .releaseBuild _ _ => some releaseBuildResponse
  | .releaseSubmit _ _ => some releaseSubmitResponse
  | .walletBalance _ => some walletBalanceResponse
  | .depositBuild _ _ => some depositBuildResponse
  | .depositSubmit _ _ => some depositSubmitResponse
  | .createBuild _ => some createBuildResponse
  | .createSubmit _ _ => some createSubmitResponse
  | .startQuote _ => some startQuoteResponse
  | .startBuild _ => some startBuildResponse
  | .startSubmit _ _ => some startSubmitResponse

/-- The service's success for a route has the type that the function declares. -/
theorem successType_route (c : Call ν) : successType (c.route w) = some c.responseType := by
  cases c <;> rfl

/-- A response refuses, or it is read as a value of the route's type. -/
theorem admits_answer {route : Route} {type : TsType} (htype : successType route = some type)
    {response : Response} (ha : Answers h route response) :
    (response.Refuses ∧ Settled h) ∨ ∃ status body v, response = .reply status body ∧
      (200 ≤ status ∧ status < 300) ∧ JsonText.parse w.numbers (w.text body) = some v ∧
        type.admits v = true := by
  have hfields : ∀ {types : List (String × TsType)} {fields : List (String × Value ν)}
      {status : ℕ} {body : Body}, 200 ≤ status ∧ status < 300 → (types.map (·.1)).Nodup →
      w.text body = w.encode (object fields) →
      List.Forall₂ (fun t f => t.1 = f.1 ∧ t.2.admits (f.2.readBack w.numbers) = true)
        types fields →
      ∃ status' body' v, Response.reply status body = .reply status' body' ∧
        (200 ≤ status' ∧ status' < 300) ∧ JsonText.parse w.numbers (w.text body') = some v ∧
          (TsType.interface types).admits v = true := fun hok hnodup htext hall =>
    ⟨_, _, _, rfl, hok, by rw [htext, w.parse_encode], admits_object hnodup hall⟩
  cases ha with
  | refused hr hs => exact .inl ⟨hr, hs⟩
  | healthz => cases htype
  | walletBalance =>
      cases htype
      exact .inr (hfields (by decide) (by decide) rfl
        (.cons ⟨rfl, rfl⟩ (.cons ⟨rfl, rfl⟩ .nil)))
  | startQuote =>
      cases htype
      exact .inr (hfields (by decide) (by decide) rfl
        (.cons ⟨rfl, rfl⟩ (.cons ⟨rfl, rfl⟩ (.cons ⟨rfl, rfl⟩ .nil))))
  | depositBuild =>
      cases htype
      exact .inr (hfields (by decide) (by decide) rfl
        (.cons ⟨rfl, rfl⟩ (.cons ⟨rfl, rfl⟩ .nil)))
  | createBuild =>
      cases htype
      exact .inr (hfields (by decide) (by decide) rfl
        (.cons ⟨rfl, rfl⟩ (.cons ⟨rfl, admits_int64 _⟩ (.cons ⟨rfl, rfl⟩ .nil))))
  | startBuild =>
      cases htype
      exact .inr (hfields (by decide) (by decide) rfl
        (.cons ⟨rfl, rfl⟩ (.cons ⟨rfl, admits_int64 _⟩ (.cons ⟨rfl, admits_int64 _⟩ .nil))))
  | releaseBuild =>
      cases htype
      exact .inr (hfields (by decide) (by decide) rfl
        (.cons ⟨rfl, rfl⟩ (.cons ⟨rfl, rfl⟩ (.cons ⟨rfl, admits_winners _⟩ .nil))))
  | createSubmit =>
      cases htype
      exact .inr (hfields (by decide) (by decide) rfl
        (.cons ⟨rfl, rfl⟩ (.cons ⟨rfl, rfl⟩ (.cons ⟨rfl, rfl⟩ .nil))))
  | createPending =>
      cases htype
      exact .inr (hfields (by decide) (by decide) rfl
        (.cons ⟨rfl, rfl⟩ (.cons ⟨rfl, rfl⟩ (.cons ⟨rfl, rfl⟩ .nil))))
  | depositSubmit | startSubmit | releaseSubmit =>
      cases htype
      exact .inr (hfields (by decide) (by decide) rfl
        (.cons ⟨rfl, rfl⟩ (.cons ⟨rfl, rfl⟩ .nil)))
  | pending hsubmit =>
      have : type = submitResponse [] := by
        cases route <;> first | exact hsubmit.elim | exact (Option.some_inj.mp htype).symm
      subst this
      exact .inr (hfields (by decide) (by decide) rfl
        (.cons ⟨rfl, rfl⟩ (.cons ⟨rfl, rfl⟩ .nil)))

end

/-! ## What is heard -/

/-- What the caller of a function hears over the network `net`, after the calls `h` the service has
made for it. -/
inductive Heard (w : Codec ν) (net : ℕ → Delivery) (c : Call ν) (wallet : CodeUnits)
    (h : List Done) : Except Thrown (Value ν) → Prop
  | resolved {status : ℕ} {body : Body} {v : Value ν} (typed : c.responseType.admits v = true)
      (answers : Answers h (c.route w) (.reply status body)) (success : 200 ≤ status ∧ status < 300)
      (read : JsonText.parse w.numbers (w.text body) = some v) : Heard w net c wallet h (.ok v)
  | refused {status : ℕ} {code message : CodeUnits} (refuses : 400 ≤ status ∧ status < 600)
      (settled : Settled h) : Heard w net c wallet h (.error (.coreGo status code message))
  | aborted (settled : Settled h) : Heard w net c wallet h (.error .other)
  | unanswered {response : Response} (lost : net 0 = .unanswered)
      (answers : Answers h (c.route w) response) : Heard w net c wallet h (.error .other)
  | unreached (lost : ¬ c.Delivered net) (uncalled : h = []) :
      Heard w net c wallet h (.error .other)
  | missed (unroutable : c.target ∈ unroutable) (uncalled : h = []) :
      Heard w net c wallet h (.error (missed w wallet))
  | unsent (lone : Utf16.wellFormed c.target = false) (uncalled : h = []) :
      Heard w net c wallet h (.error .other)

/-- What is heard of a response that arrives. -/
theorem heard_receive {w : Codec ν} {net : ℕ → Delivery} {c : Call ν} {wallet : CodeUnits}
    {h : List Done} {response : Response} (ha : Answers h (c.route w) response) :
    Heard w net c wallet h (receive w.numbers (w.reply response)) := by
  rcases admits_answer (w := w) (successType_route c) ha with
    ⟨hr, hs⟩ | ⟨status, body, v, rfl, hok, hv, htyped⟩
  · cases response with
    | aborted => exact .aborted hs
    | reply status body =>
        cases body with
        | error code message =>
            have hbad : ¬ (200 ≤ status ∧ status < 300) := fun hok => by have := hr.1; omega
            rw [show Response.reply status (.error code message)
              = Service.writeError status code message from rfl, receive_error hbad]
            exact .refused hr hs
        | _ => exact hr.elim
  · have hreceive : receive w.numbers (w.reply (.reply status body)) = .ok v := by
      simp only [Codec.reply, receive, hv, if_pos hok]
    rw [hreceive]
    exact .resolved htyped ha hok hv

variable {w : Codec ν} {deps : Deps} {env : Env} {wallet : CodeUnits}

end CoreGo
