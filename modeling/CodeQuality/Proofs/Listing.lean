import CodeQuality.Proofs.Entity
import CodeQuality.Proofs.Json.Sole
import CodeQuality.Proofs.Response

/-!
# Branch listings

The body of a branch listing is an object with one member `branches`, and its value is a list. Such
a body is read if each entry of the list is, taken out as a document of its own, and what is read is
one record an entry, in their order; a body that is an object of any other form is not read at all.
In mock mode the samples come behind what has been read, and that is all that mock mode does: to
this operation and its request, and to every other one.

* `ListingText` — the bodies of listings, put together of their entries.
* `ListingText.readListing_body_iff`, `ListingText.exists_of_read` — which of them are read, and
  that there are no others.
* `Client.lists_branches` — what mock mode and the body make of the result.
-/

namespace CodeQuality

open Json Json.Reader

/-- The body of a listing: an object with just one member `branches`, whose value is a list of
values. Two containers are open around each of them, so that they may open that many fewer. -/
structure ListingText where
  object : ObjectText
  list : ListText
  sole : object.HasSole "branches"
  spaced : list.Spaced
  value : object.member.value = list.chars
  nested : ∀ e ∈ list.items,
    ∃ v, Document.whole (Document.value (maxLevels - 2)) (String.ofList e) = .ok v

namespace ListingText

def body (t : ListingText) : String := String.ofList t.object.chars

/-- The entries of the listing, each with the blanks around it. -/
def entries (t : ListingText) : List String := t.list.items.map String.ofList

end ListingText

/-! ### Entries -/

namespace BranchLike

theorem readsValues_reader (levels : Nat) : (schema.reader levels).ReadsValues := by
  show ((Document.value levels) >>= fun v => standing (schema.ofValue v)).ReadsValues
  exact (Document.readsValues_value levels).bind fun v => (local_standing _).anywhere

theorem whole_reader_iff {levels : Nat} {entry : String} {x : schema.Val} :
    Document.whole (schema.reader levels) entry = .ok x ↔
      ∃ v, Document.whole (Document.value levels) entry = .ok v ∧ schema.ofValue v = .ok x := by
  show Document.whole ((Document.value levels) >>= fun v => standing (schema.ofValue v)) entry =
    .ok x ↔ _
  exact whole_standing_iff

/-- What is read of an entry depends on nothing but its value. -/
theorem whole_reader_of_value {levels : Nat} {entry : String} {v : Value}
    (hv : Document.whole (Document.value levels) entry = .ok v) (x : schema.Val) :
    Document.whole (schema.reader levels) entry = .ok x ↔ schema.ofValue v = .ok x := by
  rw [whole_reader_iff, hv]
  constructor
  · rintro ⟨w, hw, hx⟩
    obtain rfl := Except.ok.inj hw
    exact hx
  · exact fun hx => ⟨v, rfl, hx⟩

end BranchLike

/-! ### Bodies -/

/-- What is made of the body of a listing. -/
def Client.readListing (mock : Bool) (body : String) : Except Json.Failure (List BranchLike) :=
  (branchListSchema.read body).map fun answer =>
    Operation.listing mock (List.map BranchLike.ofVal answer.1)

namespace ListingText

/-- An object with one member `branches`, whose value is a list of what `item` describes. -/
abbrev envelope (item : Schema) : Schema :=
  .record "BranchListResponse" (Fields.sole "branches" (.list item))

variable {item : Schema}

theorem read_envelope (h : (item.reader (maxLevels - 2)).ReadsValues) (t : ListingText)
    {as : List item.Val}
    (has : t.list.items.map (fun e => Document.whole (item.reader (maxLevels - 2))
      (String.ofList e)) = as.map .ok) :
    (envelope item).read t.body = .ok (Fields.rowCons (.plain "branches") as ()) := by
  have hlist := (Schema.whole_list_iff h).mpr ⟨t.list, t.spaced, rfl, has⟩
  rw [← t.value] at hlist
  exact Schema.whole_sole "BranchListResponse" (Schema.takes_list h.takes) t.sole hlist

/-- Whatever is read from an object has the form of a listing. -/
theorem form_of_read (h : (item.reader (maxLevels - 2)).ReadsValues) {w : List Char}
    {as : List item.Val} (hw : (w.dropWhile isSpace).head? = some '\x7b')
    (hread : (envelope item).read (String.ofList w) =
      .ok (Fields.rowCons (.plain "branches") as ())) :
    ∃ (object : ObjectText) (list : ListText), object.HasSole "branches" ∧ list.Spaced ∧
      object.member.value = list.chars ∧ object.chars = w ∧
      list.items.map (fun e => Document.whole (item.reader (maxLevels - 2)) (String.ofList e)) =
        as.map .ok := by
  obtain ⟨object, hsole, hchars, hvalue⟩ :=
    Schema.object_of_whole (Schema.takes_list h.takes) hw hread
  obtain ⟨list, hspaced, hlist, has⟩ := (Schema.whole_list_iff h).mp hvalue
  exact ⟨object, list, hsole, hspaced, hlist.symm, hchars, has⟩

/-- Do the entries have these values? -/
def Denotes (t : ListingText) (vs : List Value) : Prop :=
  t.list.items.map (fun e => Document.whole (Document.value (maxLevels - 2)) (String.ofList e)) =
    vs.map .ok

variable {t : ListingText} {vs : List Value}

theorem exists_denotes (t : ListingText) : ∃ vs, t.Denotes vs :=
  exists_map_ok_iff.mpr t.nested

/-- The body decides which values its entries have. -/
theorem values_of_body {t' : ListingText} {vs' : List Value} (ht : t.Denotes vs)
    (ht' : t'.Denotes vs') (hbody : t.body = t'.body) : vs = vs' := by
  -- What is read without a look at the entries is the list of their values.
  have hany : (Schema.any.reader (maxLevels - 2)).ReadsValues := Document.readsValues_value _
  have hread := read_envelope hany t ht
  rw [hbody, read_envelope hany t' ht'] at hread
  exact (Prod.mk.inj (Except.ok.inj hread)).1.symm

theorem items_iff (h : t.Denotes vs) {xs : List BranchLike.schema.Val} :
    t.list.items.map (fun e => Document.whole (BranchLike.schema.reader (maxLevels - 2))
      (String.ofList e)) = xs.map .ok ↔ vs.map BranchLike.schema.ofValue = xs.map .ok :=
  map_ok_congr (fun _ _ => BranchLike.whole_reader_of_value) h

/-- An object is read only if it is a listing. -/
theorem exists_of_read {w : List Char} {xs : List BranchLike.schema.Val}
    (hw : (w.dropWhile isSpace).head? = some '\x7b')
    (h : Client.branchListSchema.read (String.ofList w) =
      .ok (Fields.rowCons (.plain "branches") xs ())) :
    ∃ t : ListingText, t.object.chars = w ∧
      t.list.items.map (fun e => Document.whole (BranchLike.schema.reader (maxLevels - 2))
        (String.ofList e)) = xs.map .ok := by
  obtain ⟨object, list, hsole, hspaced, hvalue, hchars, hxs⟩ :=
    form_of_read (BranchLike.readsValues_reader _) hw h
  refine ⟨⟨object, list, hsole, hspaced, hvalue, fun e he => ?_⟩, hchars, hxs⟩
  obtain ⟨x, hx⟩ := exists_map_ok_iff.mp ⟨xs, hxs⟩ e he
  obtain ⟨v, hv, -⟩ := BranchLike.whole_reader_iff.mp hx
  exact ⟨v, hv⟩

theorem head?_chars (t : ListingText) :
    (t.object.chars.dropWhile isSpace).head? = some '\x7b' := by
  rw [ObjectText.chars, List.dropWhile_append_of_pos t.sole.before]
  rfl

/-- A listing is read if the values of its entries are. -/
theorem read_body_iff (h : t.Denotes vs) {xs : List BranchLike.schema.Val} :
    Client.branchListSchema.read t.body = .ok (Fields.rowCons (.plain "branches") xs ()) ↔
      vs.map BranchLike.schema.ofValue = xs.map .ok := by
  constructor
  · intro hread
    -- The body may be put together in another way, but the values of the entries are the same.
    obtain ⟨t', hchars, hxs⟩ := exists_of_read t.head?_chars hread
    obtain ⟨vs', h'⟩ := t'.exists_denotes
    obtain rfl := values_of_body h h' (congrArg String.ofList hchars.symm)
    exact (items_iff h').mp hxs
  · intro hxs
    exact read_envelope (BranchLike.readsValues_reader _) t ((items_iff h).mpr hxs)

/-- The entries are read inside the listing as they are read alone. -/
theorem readListing_body_iff (t : ListingText) {l : List BranchLike} :
    Client.readListing false t.body = .ok l ↔
      t.entries.map Entity.branchLike.decode = l.map .ok := by
  obtain ⟨vs, h⟩ := t.exists_denotes
  have hentries {xs : List BranchLike.schema.Val} :
      t.entries.map BranchLike.schema.read = xs.map .ok ↔
        vs.map BranchLike.schema.ofValue = xs.map .ok := by
    rw [entries, List.map_map]
    -- Alone an entry may open two more containers, which it has no need of.
    refine map_ok_congr (fun e v hv => ?_) h
    exact BranchLike.whole_reader_of_value (Document.whole_of_below
      (Document.below_value (Nat.sub_le maxLevels 2)) hv)
  refine Iff.trans ?_ map_map_ok_iff.symm
  refine map_ok_iff.trans ?_
  constructor
  · rintro ⟨⟨xs, ⟨⟩⟩, hread, hl⟩
    exact ⟨xs, hentries.mpr ((read_body_iff h).mp hread), hl⟩
  · rintro ⟨xs, hxs, hl⟩
    exact ⟨_, (read_body_iff h).mpr (hentries.mp hxs), hl⟩

end ListingText

/-! ### Mock mode -/

namespace Client

/-- The branches of a project with mock mode on or off, and the journal behind them. -/
def listed (c : Client) (project : String) (j : Journal) (mock : Bool) :
    Except ApiError (List BranchLike) × Journal :=
  ((c.withMockMode mock).branches project).run j

/-- Is this the text of the success with which the request for the branches is answered? -/
def AnswersListing (c : Client) (project text : String) : Prop :=
  ∃ url response, c.endpoint listPath = .ok url ∧
    c.transport (.ask url [("project", project)]) = .answered response ∧
    200 ≤ response.status.code ∧ response.status.code ≤ 299 ∧ response.text = text

/-- What becomes of the branches of a project, and what mock mode has to do with it. -/
structure ListsBranches (c : Client) (project : String) (j : Journal) : Prop where
  /-- the same request is sent in either mode, if any is -/
  sent : ∃ requests : List Http.Request, requests.length ≤ 1 ∧
    ∀ mock, (c.listed project j mock).2.sent = j.sent ++ requests
  /-- it fails in both modes with the same error, or three pull requests come behind what is listed,
  in this order, all of them analysed as the second day of 2017 began -/
  returned : (∃ e, ∀ mock, (c.listed project j mock).1 = .error e) ∨
    ∃ l, (c.listed project j false).1 = .ok l ∧
      (c.listed project j true).1 = .ok (l ++
        [.pullRequest
          { analysisDate := some ⟨1483315200, 0⟩
            base := "master"
            branch := "feature/stas/pr-api"
            id := "2734"
            name := "SONAR-10374 Support pull request in the web app"
            status := { bugs := 1, codeSmells := 3, vulnerabilities := 0 } },
        .pullRequest
          { analysisDate := some ⟨1483315200, 0⟩
            base := "branch-6.7"
            branch := "feature/stas/my-bug-fix"
            id := "2725"
            name := "fix critical LTS issue"
            status := { bugs := 0, codeSmells := 0, vulnerabilities := 0 } },
        .pullRequest
          { analysisDate := some ⟨1483315200, 0⟩
            base := "unknown-branch"
            branch := "feature/stas/unknown-branch"
            id := "9999"
            name := "create orphan pull request"
            status := { bugs := 0, codeSmells := 0, vulnerabilities := 0 } }])
  /-- a listing is read if each of its entries is, and there is one record for each -/
  entries (t : ListingText) : c.AnswersListing project t.body →
    ((∃ l, (c.listed project j false).1 = .ok l) ↔
      ∀ entry ∈ t.entries, ∃ e, Entity.branchLike.decode entry = .ok e) ∧
    ∀ l, (c.listed project j false).1 = .ok l →
      t.entries.map Entity.branchLike.decode = l.map .ok
  /-- no object is read that is not a listing -/
  form (text : String) : c.AnswersListing project text →
    (text.toList.dropWhile isSpace).head? = some '\x7b' →
    (∃ l, (c.listed project j false).1 = .ok l) → ∃ t : ListingText, t.body = text
  /-- only the last switch counts -/
  switched (switches : List Bool) (last : Bool) :
    (switches ++ [last]).foldl withMockMode c = c.withMockMode last
  /-- mock mode is nothing to any other call -/
  others (k : Call) : (∀ project, k ≠ .operation (.branches project)) →
    ∀ mock, k.perform (c.withMockMode mock) = k.perform c

section Switch

variable {α : Type} (c : Client) (mock : Bool) (path : String) (request : Url → Http.Request)

theorem endpoint_withMockMode : (c.withMockMode mock).endpoint path = c.endpoint path := rfl

theorem answer_withMockMode (read : String → Except Json.Failure α) :
    (c.withMockMode mock).answer path request read = c.answer path request read := by
  unfold answer
  rw [endpoint_withMockMode]
  cases c.endpoint path <;> rfl

theorem sentTo_withMockMode :
    (c.withMockMode mock).sentTo path request = c.sentTo path request := by
  unfold sentTo
  rw [endpoint_withMockMode]
  cases c.endpoint path <;> rfl

end Switch

variable {c : Client} {project : String} {j : Journal}

theorem listed_eq (c : Client) (project : String) (j : Journal) (mock : Bool) :
    (c.listed project j mock).1 =
      c.answer listPath (.ask · [("project", project)]) (readListing mock) ∧
    (c.listed project j mock).2.sent =
      j.sent ++ c.sentTo listPath (.ask · [("project", project)]) := by
  obtain ⟨j', hrun, hgrows⟩ := (Operation.branches project).ends_perform (c.withMockMode mock) j
  have hlisted : c.listed project j mock =
      ((c.withMockMode mock).answer listPath (.ask · [("project", project)]) (readListing mock),
        j') := hrun
  have hsent : j'.sent = j.sent ++
      (c.withMockMode mock).sentTo listPath (.ask · [("project", project)]) := hgrows.sent
  rw [answer_withMockMode] at hlisted
  rw [sentTo_withMockMode] at hsent
  rw [hlisted]
  dsimp only
  exact ⟨rfl, hsent⟩

/-- In mock mode the samples come behind what is read otherwise. -/
theorem readListing_mock (body : String) : readListing true body =
    (readListing false body).map (· ++ PullRequest.samples.map .pullRequest) := by
  unfold readListing
  cases branchListSchema.read body <;> rfl

theorem listed_of_answers {text : String} (h : c.AnswersListing project text) (j : Journal) :
    (c.listed project j false).1 = (readListing false text).mapError .schema := by
  obtain ⟨url, response, hurl, hanswer, hlow, hhigh, rfl⟩ := h
  have hsuccess := response.status.isSuccess_iff.mpr ⟨hlow, hhigh⟩
  rw [(listed_eq c project j false).1]
  exact answer_eq_of_success hurl hanswer hsuccess _

/-- The branches of a project are what the server lists, entry by entry, or nothing at all; mock
mode adds the samples and touches nothing else. -/
theorem lists_branches (c : Client) (project : String) (j : Journal) :
    c.ListsBranches project j where
  sent := ⟨_, c.length_sentTo_le _ _, fun mock => (listed_eq c project j mock).2⟩
  returned := by
    have hmock : (c.listed project j true).1 =
        (c.listed project j false).1.map (· ++ PullRequest.samples.map .pullRequest) := by
      rw [(listed_eq c project j true).1, (listed_eq c project j false).1, answer_map]
      exact congrArg (c.answer _ _) (funext readListing_mock)
    cases hplain : (c.listed project j false).1 with
    | error e =>
      rw [hplain] at hmock
      refine .inl ⟨e, fun mock => ?_⟩
      cases mock with
      | false => exact hplain
      | true => exact hmock
    | ok l =>
      rw [hplain] at hmock
      exact .inr ⟨l, rfl, hmock⟩
  entries t h := by
    have hlisted {l : List BranchLike} : (c.listed project j false).1 = .ok l ↔
        t.entries.map Entity.branchLike.decode = l.map .ok := by
      rw [listed_of_answers h j, mapError_ok_iff]
      exact t.readListing_body_iff
    refine ⟨?_, fun l => hlisted.mp⟩
    rw [← exists_map_ok_iff]
    exact exists_congr fun l => hlisted
  form text h hbrace hread := by
    obtain ⟨l, hl⟩ := hread
    rw [listed_of_answers h j, mapError_ok_iff] at hl
    obtain ⟨⟨xs, ⟨⟩⟩, hread, -⟩ := map_ok_iff.mp hl
    -- Read as a listing, the text has entries, and nothing but a listing has its form.
    rw [← String.ofList_toList (s := text)] at hread
    obtain ⟨t, hchars, -⟩ := ListingText.exists_of_read hbrace hread
    exact ⟨t, by rw [ListingText.body, hchars, String.ofList_toList]⟩
  switched switches last := by
    rw [List.foldl_append]
    induction switches generalizing c with
    | nil => rfl
    | cons enabled switches ih => exact ih (c.withMockMode enabled)
  others k h mock := by
    cases k with
    | operation op =>
      cases op with
      | branches project => exact absurd rfl (h project)
      | _ => rfl
    | fetch => rfl
    | post => rfl

/-- A page with a branch and a pull request. -/
theorem lists_branches_paged :
    let url (path : List String) : Url :=
      { scheme := "http".toList, host := some (.domain "host".toList),
        path := .segments (path.map String.toList) }
    let main := "\x7b\"name\":\"main\"\x7d"
    let fix := " \x7b\"base\":\"main\",\"branch\":\"fix\",\"key\":\"7\",\"title\":\"Fix\"\x7d"
    let text := "\x7b\"paging\":1,\"branches\":[" ++ main ++ "," ++ fix ++ "]\x7d\n"
    let c : Client :=
      { baseUrl := url [""], options := {}, sink := .collector,
        transport := fun _ => .answered ⟨⟨200⟩, none, Text.octets text.toList⟩ }
    let l : List BranchLike :=
      [.branch { name := "main" },
        .pullRequest { base := "main", branch := "fix", id := "7", name := "Fix" }]
    (c.listed "p" {} false).1 = .ok l ∧
      (c.listed "p" {} true).1 = .ok (l ++ PullRequest.samples.map .pullRequest) := by
  intro url main fix text c l
  let list : ListText := ⟨[], [main.toList, fix.toList], [], []⟩
  let object : ObjectText :=
    { before := []
      front := [⟨"\"paging\"".toList, "1".toList⟩]
      member := ⟨"\"branches\"".toList, list.chars⟩
      back := []
      close := []
      behind := ['\n'] }
  have hsole : object.HasSole "branches" :=
    { before := List.forall_mem_nil _
      front := List.forall_mem_singleton.mpr ⟨⟨"paging", by decide, rfl⟩, rfl⟩
      member := show Value.read "\"branches\"" = .ok (.text "branches") from rfl
      back := List.forall_mem_nil _
      close := List.forall_mem_nil _
      behind := List.forall_mem_singleton.mpr rfl }
  have hnested : ∀ e ∈ list.items,
      ∃ v, Document.whole (Document.value (maxLevels - 2)) (String.ofList e) = .ok v := by
    have hsome : ∀ e ∈ list.items,
        (Document.whole (Document.value (maxLevels - 2)) (String.ofList e)).toOption.isSome := by
      decide +kernel
    intro e he
    obtain ⟨v, hv⟩ := Option.isSome_iff_exists.mp (hsome e he)
    exact ⟨v, toOption_eq_some_iff.mp hv⟩
  have hblanks : Blanks [] := List.forall_mem_nil _
  let t : ListingText := ⟨object, list, hsole, ⟨hblanks, hblanks, hblanks⟩, rfl, hnested⟩
  have hurl : c.endpoint listPath = .ok (url ["api", "project_branches", "list"]) :=
    toOption_eq_some_iff.mp (by decide +kernel)
  have htext : Http.Response.text ⟨⟨200⟩, none, Text.octets text.toList⟩ =
      String.ofList object.chars := by decide +kernel
  have hanswers : c.AnswersListing "p" t.body := ⟨_, _, hurl, rfl, by decide, by decide, htext⟩
  have hmain : Entity.branchLike.decode (String.ofList main.toList) =
      .ok (.branch { name := "main" }) := toOption_eq_some_iff.mp (by decide +kernel)
  have hfix : Entity.branchLike.decode (String.ofList fix.toList) =
      .ok (.pullRequest { base := "main", branch := "fix", id := "7", name := "Fix" }) :=
    toOption_eq_some_iff.mp (by decide +kernel)
  have hdecode : t.entries.map Entity.branchLike.decode = l.map .ok := by
    show [Entity.branchLike.decode _, Entity.branchLike.decode _] = _
    rw [hmain, hfix]
    rfl
  -- Both entries are read, and so the page is.
  obtain ⟨-, hreturned, hlisted, -⟩ := lists_branches c "p" {}
  obtain ⟨hsome, hall⟩ := hlisted t hanswers
  obtain ⟨l', hl'⟩ := hsome.mpr (exists_map_ok_iff.mp ⟨l, hdecode⟩)
  obtain rfl : l' = l :=
    List.map_inj_right (fun _ _ => Except.ok.inj) |>.mp ((hall l' hl').symm.trans hdecode)
  rcases hreturned with ⟨e, he⟩ | ⟨l', hplain, hmock⟩
  · exact nomatch (he false).symm.trans hl'
  · obtain rfl := Except.ok.inj (hplain.symm.trans hl')
    exact ⟨hplain, hmock⟩

end Client
end CodeQuality
