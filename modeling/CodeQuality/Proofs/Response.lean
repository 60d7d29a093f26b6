import CodeQuality.Proofs.Reporting

/-!
# Every call treats a response alike

Whichever call it is, what a server answers means the same to it. A refusal becomes an error that
nothing but the status and the text of the response decides. Of a success, a call that tells
something wants no more than that, and a call that asks wants a text that its schema describes.
Without an answer the network has failed.

* `Call.envelope?` — what the text of a success has to be.
* `Call.Treats` — what the delivery of its request means to a call.
* `Call.treats_perform` — it means this to every call of every client.
-/

namespace CodeQuality

/-- The codes of a success. -/
theorem Http.Status.isSuccess_iff (status : Http.Status) :
    status.isSuccess = true ↔ 200 ≤ status.code ∧ status.code ≤ 299 := by
  unfold isSuccess
  rw [Bool.and_eq_true, decide_eq_true_iff, decide_eq_true_iff]
  omega

/-- What the text of a success has to be, where it is looked at. -/
def Operation.envelope? : Operation → Option Json.Schema
  | branches _ => some Client.branchListSchema
  | deleteBranch _ | renameBranch _ _ => none
  | measures _ => some Client.componentMeasuresSchema
  | measuresAndMeta _ _ _ => some MeasuresAndMeta.schema
  | projectMeasures _ _ => some Client.projectMeasuresSchema

namespace Call

/-! ### Texts -/

def method : Call → Http.Method
  | operation op => op.method
  | fetch _ _ _ => .get
  | post _ _ => .post

/-- What the text of a success has to be, where it is looked at. -/
def envelope? : Call → Option Json.Schema
  | operation op => op.envelope?
  | fetch schema _ _ => some schema
  | post _ _ => none

/-- A call that tells something takes every text. -/
theorem decode_of_post {k : Call} (h : k.method = .post) (mock : Bool) (body : String) :
    ∃ a, k.decode mock body = .ok a := by
  cases k with
  | operation op =>
    cases op with
    | deleteBranch | renameBranch => exact ⟨(), rfl⟩
    | branches | measures | measuresAndMeta | projectMeasures => nomatch h
  | fetch => nomatch h
  | post => exact ⟨(), rfl⟩

/-- A call that asks makes something of every text that its schema describes. -/
theorem decode_of_get {k : Call} (h : k.method = .get) (mock : Bool) :
    ∃ schema, k.envelope? = some schema ∧
      ∃ f : schema.Val → k.Answer, ∀ body, k.decode mock body = (schema.read body).map f := by
  cases k with
  | operation op =>
    cases op with
    | branches | measures | measuresAndMeta | projectMeasures => exact ⟨_, rfl, _, fun _ => rfl⟩
    | deleteBranch | renameBranch => nomatch h
  | fetch schema =>
    refine ⟨schema, rfl, id, fun body => ?_⟩
    show schema.read body = (schema.read body).map id
    cases schema.read body <;> rfl
  | post => nomatch h

/-! ### Responses -/

/-- Does the result of a call follow from the delivery of its request, as it does for every other
call? -/
structure Treats (k : Call) (delivery : Http.Delivery) (result : Except ApiError k.Answer) :
    Prop where
  /-- without an answer the network has failed, with what went wrong there -/
  silent : ∀ failure, delivery.failure? = some failure → result = .error (.network failure)
  /-- a refusal is the error that its status and its text make -/
  refused : ∀ response, delivery = .answered response →
    ¬ (200 ≤ response.status.code ∧ response.status.code ≤ 299) →
    result = .error (.ofResponse response.status response.text)
  /-- a success is enough where something was told, whatever its text -/
  told : ∀ response, delivery = .answered response →
    200 ≤ response.status.code ∧ response.status.code ≤ 299 → k.method = .post →
    ∃ a, result = .ok a
  /-- where something was asked, the text has to be what the schema of the call describes -/
  asked : ∀ response, delivery = .answered response →
    200 ≤ response.status.code ∧ response.status.code ≤ 299 → k.method = .get →
    ∃ schema, k.envelope? = some schema ∧
      ((∃ a, result = .ok a) ↔ ∃ v, schema.read response.text = .ok v) ∧
      ∀ failure, result = .error (.schema failure) ↔ schema.read response.text = .error failure
  /-- only a success gives a value -/
  done : ∀ a, result = .ok a → ∃ response, delivery = .answered response ∧
    200 ≤ response.status.code ∧ response.status.code ≤ 299

variable {k : Call} {result : Except ApiError k.Answer} {response : Http.Response}

theorem treats_of_silent {delivery : Http.Delivery} {failure : Http.Failure}
    (h : delivery.failure? = some failure) : k.Treats delivery (.error (.network failure)) := by
  have hsilent (response : Http.Response) : delivery ≠ .answered response := by
    rintro rfl
    nomatch h
  constructor
  case silent => exact fun _ hfailure => by rw [Option.some.inj (h.symm.trans hfailure)]
  case refused => exact fun response hanswered => absurd hanswered (hsilent response)
  case told => exact fun response hanswered => absurd hanswered (hsilent response)
  case asked => exact fun response hanswered => absurd hanswered (hsilent response)
  case done => exact fun _ => nofun

theorem treats_of_refused (h : response.status.isSuccess = false) :
    k.Treats (.answered response) (.error (.ofResponse response.status response.text)) := by
  have hcode : ¬ (200 ≤ response.status.code ∧ response.status.code ≤ 299) := by
    rw [← Http.Status.isSuccess_iff, h]
    exact Bool.false_ne_true
  constructor
  case silent => exact fun _ => nofun
  case refused => rintro _ ⟨⟩ _; rfl
  case told => rintro _ ⟨⟩ hsuccess; exact absurd hsuccess hcode
  case asked => rintro _ ⟨⟩ hsuccess; exact absurd hsuccess hcode
  case done => nofun

/-- Of a success the call makes what it makes of its text. -/
theorem treats_of_success (mock : Bool) (h : response.status.isSuccess = true) :
    k.Treats (.answered response) ((k.decode mock response.text).mapError .schema) := by
  have hcode := response.status.isSuccess_iff.mp h
  constructor
  case silent => exact fun _ => nofun
  case refused => rintro _ ⟨⟩ hrefused; exact absurd hcode hrefused
  case told =>
    rintro _ ⟨⟩ _ hpost
    obtain ⟨a, ha⟩ := decode_of_post hpost mock response.text
    exact ⟨a, by rw [ha]; rfl⟩
  case asked =>
    rintro _ ⟨⟩ _ hget
    obtain ⟨schema, hschema, f, hf⟩ := decode_of_get hget mock
    refine ⟨schema, hschema, ?_⟩
    rw [hf]
    cases schema.read response.text with
    | ok v => exact ⟨⟨fun _ => ⟨v, rfl⟩, fun _ => ⟨f v, rfl⟩⟩, fun _ => ⟨nofun, nofun⟩⟩
    | error e =>
      refine ⟨⟨nofun, nofun⟩, fun failure => ⟨?_, ?_⟩⟩
      · rintro ⟨⟩; rfl
      · rintro ⟨⟩; rfl
  case done => exact fun _ _ => ⟨response, rfl, hcode⟩

/-- A client that finds the URL of a call treats the response to it as every client does with every
call: whether it is in mock mode, what it was told to ask for and what has gone on before does not
matter. -/
theorem treats_perform (k : Call) (c : Client) {url : Url} (h : c.endpoint k.path = .ok url)
    (j : Journal) : k.Treats (c.transport (k.request url)) ((k.perform c).run j).1 := by
  obtain ⟨j', hrun, -⟩ := k.ends_result c j
  rw [hrun]
  unfold Call.result Client.answer
  rw [h]
  dsimp only
  cases c.transport (k.request url) with
  | unreachable | unanswered => exact treats_of_silent rfl
  | answered response =>
    dsimp only
    cases hsuccess : response.status.isSuccess with
    | false =>
      rw [if_neg Bool.false_ne_true]
      exact treats_of_refused hsuccess
    | true =>
      rw [if_pos rfl]
      exact treats_of_success _ hsuccess

/-- The same refusal of a listing in mock mode and of a deletion without it. -/
theorem treats_perform_forbidden :
    let url (path : List String) : Url :=
      { scheme := "http".toList, host := some (.domain "host".toList),
        path := .segments (path.map String.toList) }
    let response : Http.Response := ⟨⟨403⟩, none, [110, 111]⟩
    let c (mock : Bool) : Client :=
      { baseUrl := url [""], options := { mockMode := mock }, sink := .collector,
        transport := fun _ => .answered response }
    let listing : Call := .operation (.branches "p")
    let deletion : Call := .operation (.deleteBranch (.ofBranch "p" "b"))
    (c true).endpoint listing.path = .ok (url ["api", "project_branches", "list"]) ∧
      (c false).endpoint deletion.path = .ok (url ["api", "project_branches", "delete"]) ∧
      ((listing.perform (c true)).run {}).1 = .error (.forbidden "no") ∧
      ((deletion.perform (c false)).run {}).1 = .error (.forbidden "no") := by
  intro url response c listing deletion
  have hlisting : (c true).endpoint listing.path =
      .ok (url ["api", "project_branches", "list"]) := by
    apply toOption_eq_some_iff.mp
    decide +kernel
  have hdeletion : (c false).endpoint deletion.path =
      .ok (url ["api", "project_branches", "delete"]) := by
    apply toOption_eq_some_iff.mp
    decide +kernel
  have herror : ApiError.ofResponse response.status response.text = .forbidden "no" := by
    decide +kernel
  refine ⟨hlisting, hdeletion, ?_, ?_⟩
  · rw [← herror]
    exact (treats_perform listing (c true) hlisting {}).refused response rfl (by decide)
  · rw [← herror]
    exact (treats_perform deletion (c false) hdeletion {}).refused response rfl (by decide)

end Call
end CodeQuality
