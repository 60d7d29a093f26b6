import CodeQuality.Proofs.Entity
import CodeQuality.Proofs.Json.RecordText
import CodeQuality.Proofs.Response

/-!
# Two readers of one response

The measures of a component are asked for in two ways: alone, and with what explains them. The
server answers both with one document. The first way passes over most of it, the second one reads it
with all its metrics and periods; still the first one gives the measures that the second one gives,
because whatever is read could have been passed over.

* `HasObjects` — the documents that both ways are about.
* `MeasuresAndMeta.measures_of_read` — the measures of a document that is read in full.
* `Client.measures_agree` — what both calls return.
-/

namespace CodeQuality

open Json (Label MembersText isSpace)

/-- The text has an object at its root, and another one where it has a component. -/
structure HasObjects (text : String) : Prop where
  root : (text.toList.dropWhile isSpace).head? = some '\x7b'
  component (o : MembersText) : o.WellFormed → o.text = text → ∀ m ∈ o.members,
    m.Names "component" → (m.value.dropWhile isSpace).head? = some '\x7b'

namespace MeasuresAndMeta

/-- What is read of a component in full has the measures that are read of it alone. -/
theorem measures_of_component {levels : Nat} {w : List Char} {x : MeasureComponent.schema.Val}
    (hw : (w.dropWhile isSpace).head? = some '\x7b')
    (h : MeasureComponent.schema.ReadsText (levels + 1) w x) :
    (Json.Schema.record "ComponentMeasures"
      (.cons (.defaulted "measures") (.list Measure.schema) .nil)).ReadsText (levels + 1) w
        (x.2.2.2.2.1, ()) := by
  obtain ⟨key, name, qualifier, description, measures, ⟨⟩⟩ := x
  obtain ⟨o, ps, ho, rfl, hps, -, -, -, -, hmeasures, -⟩ :=
    (Json.Schema.readsText_object_iff (by decide) hw).mp h
  exact (ho.read_iff (by decide)).mpr ⟨ps, hps, hmeasures, trivial⟩

/-- What is read in full is read with the same measures if nothing else is wanted. -/
theorem measures_of_read {text : String} {x : schema.Val} (hobjects : HasObjects text)
    (h : schema.read text = .ok x) :
    Client.componentMeasuresSchema.read text = .ok ((x.1.2.2.2.2.1, ()), ()) := by
  obtain ⟨component, metrics, periods, ⟨⟩⟩ := x
  obtain ⟨w, rfl⟩ : ∃ w, text = String.ofList w := ⟨text.toList, String.ofList_toList.symm⟩
  have hroot := hobjects.root
  rw [String.toList_ofList] at hroot
  obtain ⟨o, ps, ho, rfl, hps, hcomponent, -⟩ :=
    (Json.Schema.readsText_object_iff (by decide) hroot).mp h
  obtain ⟨p, hown, hread⟩ := (Label.finds_iff_of_required rfl).mp hcomponent
  -- The component is a member of the object, so it is an object itself.
  have hmem : p ∈ (Label.plain "component").ownTexts ps := hown ▸ List.mem_singleton_self p
  obtain ⟨hp, hcovers⟩ := List.mem_filter.mp hmem
  rw [Label.covers_plain, decide_eq_true_eq] at hcovers
  obtain ⟨m, hm, hname, hvalue⟩ := hps.exists_member hp
  have hobject := hobjects.component o ho rfl m hm (hcovers ▸ hname)
  rw [hvalue] at hobject
  have hmeasures := measures_of_component hobject hread
  exact (ho.read_iff (by decide)).mpr
    ⟨ps, hps, (Label.finds_iff_of_required rfl).mpr ⟨p, hown, hmeasures⟩, trivial⟩

end MeasuresAndMeta

/-- Is this the text of the success with which the request of the operation is answered? -/
def Operation.Answered (op : Operation) (c : Client) (text : String) : Prop :=
  ∃ url response, c.endpoint op.path = .ok url ∧ c.transport (op.request url) = .answered response ∧
    200 ≤ response.status.code ∧ response.status.code ≤ 299 ∧ response.text = text

/-- An operation whose request is answered with a success returns what it makes of the text. -/
theorem Operation.run_of_answered {op : Operation} {c : Client} {text : String}
    (h : op.Answered c text) (j : Journal) :
    ((op.perform c).run j).1 = (op.decode c.options.mockMode text).mapError .schema := by
  obtain ⟨url, response, hurl, hanswer, hlow, hhigh, rfl⟩ := h
  have hsuccess := response.status.isSuccess_iff.mpr ⟨hlow, hhigh⟩
  have hresult : op.result c = (op.decode c.options.mockMode response.text).mapError .schema :=
    Client.answer_eq_of_success hurl hanswer hsuccess (op.decode c.options.mockMode)
  obtain ⟨j', hrun, -⟩ := op.ends_perform c j
  rw [← hresult, hrun]

/-- A client that asks for measures alone and one that asks for what explains them, too, are
answered with the same text. If the second one reads it, the first one returns the measures of the
component that the second one returns; and if the first one finds a fault in it, so does the second
one. -/
theorem Client.measures_agree {c c' : Client} {r : MeasuresRequest} {component : String}
    {metrics : List String} {additional : List (String × String)} {text : String}
    (h : (Operation.measures r).Answered c text)
    (h' : (Operation.measuresAndMeta component metrics additional).Answered c' text)
    (hobjects : HasObjects text) (j j' : Journal) :
    (∀ answer, ((c'.measuresAndMeta component metrics additional).run j').1 = .ok answer →
      ((c.measures r).run j).1 = .ok answer.component.measures) ∧
    (∀ failure, ((c.measures r).run j).1 = .error (.schema failure) →
      ∃ failure', ((c'.measuresAndMeta component metrics additional).run j').1 =
        .error (.schema failure')) := by
  have hlean : ((c.measures r).run j).1 = ((Client.componentMeasuresSchema.read text).map
      fun answer => List.map Measure.ofVal answer.1.1).mapError .schema :=
    Operation.run_of_answered h j
  have hfull : ((c'.measuresAndMeta component metrics additional).run j').1 =
      ((MeasuresAndMeta.schema.read text).map .ofVal).mapError .schema :=
    Operation.run_of_answered h' j'
  rw [hlean, hfull]
  cases hread : MeasuresAndMeta.schema.read text with
  | ok x =>
    rw [MeasuresAndMeta.measures_of_read hobjects hread]
    refine ⟨?_, nofun⟩
    rintro answer ⟨⟩
    rfl
  | error failure => exact ⟨nofun, fun _ _ => ⟨failure, rfl⟩⟩

/-- A document whose component stands behind its metrics, with half of a surrogate pair between
them. -/
theorem Client.measures_agree_unsorted :
    let url (path : List String) : Url :=
      { scheme := "http".toList, host := some (.domain "host".toList),
        path := .segments (path.map String.toList) }
    let component := "\x7b\"measures\":[\x7b\"metric\":\"bugs\",\"value\":\"3\"\x7d]," ++
      "\"key\":\"k\",\"name\":\"n\",\"qualifier\":\"TRK\"\x7d"
    let text := "\x7b\"metrics\":[],\"next\":[\"\\ud800\"],\"component\":" ++ component ++ "\x7d"
    let c : Client :=
      { baseUrl := url [""], options := {}, sink := .collector,
        transport := fun _ => .answered ⟨⟨200⟩, none, Text.octets text.toList⟩ }
    let listed : List Measure := [{ metric := "bugs", value := some "3" }]
    ((c.measuresAndMeta "k" ["bugs"] []).run {}).1 = .ok
        { component := { key := "k", name := "n", qualifier := "TRK", measures := listed },
          metrics := some [] } ∧
      ((c.measures { component := "k", metrics := ["bugs"] }).run {}).1 = .ok listed := by
  intro url component text c listed
  let o : MembersText :=
    { before := []
      members := [⟨"\"metrics\"".toList, "[]".toList⟩, ⟨"\"next\"".toList, "[\"\\ud800\"]".toList⟩,
        ⟨"\"component\"".toList, component.toList⟩]
      gap := []
      behind := [] }
  have ho : o.WellFormed := .of_legible (by decide +kernel)
  have htext : o.text = text := by decide +kernel
  have hbrace : ∀ m ∈ o.members, m.name? = some "component" →
      (m.value.dropWhile isSpace).head? = some '\x7b' := by decide +kernel
  have hobjects : HasObjects text := by
    refine ⟨by decide +kernel, fun o' ho' htext' m hm hname => ?_⟩
    obtain rfl := ho'.eq_of_chars ho (String.ofList_injective (htext'.trans htext.symm))
    exact hbrace m hm (Json.MemberText.name?_eq_some_iff.mpr hname)
  have hurl : c.endpoint Client.componentPath = .ok (url ["api", "measures", "component"]) :=
    toOption_eq_some_iff.mp (by decide +kernel)
  have hbody : Http.Response.text ⟨⟨200⟩, none, Text.octets text.toList⟩ = text := by
    decide +kernel
  have hanswered (op : Operation) (hop : op.path = Client.componentPath) : op.Answered c text :=
    ⟨_, _, hop ▸ hurl, rfl, by decide, by decide, hbody⟩
  have hdecode : Entity.measuresAndMeta.decode text = .ok
      { component := { key := "k", name := "n", qualifier := "TRK", measures := listed },
        metrics := some [] } := toOption_eq_some_iff.mp (by decide +kernel)
  have hfull : ((c.measuresAndMeta "k" ["bugs"] []).run {}).1 = .ok
      { component := { key := "k", name := "n", qualifier := "TRK", measures := listed },
        metrics := some [] } :=
    (Operation.run_of_answered (hanswered (.measuresAndMeta "k" ["bugs"] []) rfl) {}).trans
      (congrArg (Except.mapError ApiError.schema) hdecode)
  exact ⟨hfull, (measures_agree (hanswered _ rfl) (hanswered _ rfl) hobjects {} {}).1 _ hfull⟩

end CodeQuality
