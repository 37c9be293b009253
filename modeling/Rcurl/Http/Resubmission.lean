import Rcurl.Http.Redirects

/-!
# What a redirect does to the method and the body

Every hop builds its request from the same options, whatever the status of the redirect. So a `303`
does not turn a submission into a `GET`: `transmitted_method_body` says what every request of every
chain carries, `see_other_resubmits` shows data that is submitted twice.
-/

namespace Rcurl

open ShellWords (Text)

/-- The method the options give. -/
def givenMethod (cli : Cli) : Text :=
  if cli.formOption ≠ [] then "POST".toList
  else if cli.headerOption then "HEAD".toList
  else
    match cli.methodOption with
    | some method => method
    | none =>
      if cli.uploadfileOption.isSome then "PUT".toList
      else if cli.bodyOption.isSome then "POST".toList
      else "GET".toList

/-- The body the options give, with the files as a hop finds them: a form, else the data, else the file
to upload, else nothing. -/
def givenBody (world : BuildWorld) (cli : Cli) : Option RequestBody :=
  if cli.formOption ≠ [] then
    (cli.formOption.mapM (formPart world)).toOption.map (.form world.boundary)
  else
    match cli.bodyOption, cli.uploadfileOption with
    | some body, _ => some (.bytes (Utf8.encode body))
    | none, some path => (world.readFile path).map .bytes
    | none, none => some (.bytes [])

/-- After a `303`, every request asks for the page alone. -/
def SeeOtherRetrieves (cli : Cli) (run : List Event × Ending) : Prop :=
  ∀ front response back, run.1 = front ++ .received response :: back → response.status = 303 →
    ∀ transmission ∈ transmittedOf back,
      transmission.request.method = (if cli.headerOption then "HEAD".toList else "GET".toList) ∧
        transmission.request.body = .bytes []

/-- The method of a finished request is the given one. -/
theorem finishRequest_method (cli : Cli) (uri : Uri) (headers : HeaderMap) (body : RequestBody) :
    (finishRequest cli uri headers body).method = givenMethod cli := by
  rw [finishRequest, givenMethod]
  by_cases form : cli.formOption ≠ []
  · rw [if_pos form, if_pos form]
  · rw [if_neg form, if_neg form, requestMethod]
    by_cases head : cli.headerOption = true
    · rw [if_pos head, if_pos head]
    · rw [if_neg head, if_neg head, if_neg form]
      cases cli.methodOption with
      | some method => rfl
      | none => rfl

/-- The body that is prepared is the given one. -/
theorem prepareBody_body {world : BuildWorld} {cli : Cli} {map : HeaderMap} {prepared : Prepared}
    (readied : prepareBody world cli map = .ok prepared) :
    givenBody world cli = some prepared.body := by
  rw [prepareBody] at readied
  rw [givenBody]
  by_cases form : cli.formOption ≠ []
  · rw [if_pos form] at readied ⊢
    obtain ⟨builder, _, readied⟩ := bind_ok.mp readied
    obtain ⟨parts, formed, readied⟩ := bind_ok.mp readied
    rw [formed, ← Except.ok.inj readied]
    rfl
  · rw [if_neg form] at readied ⊢
    cases data : cli.bodyOption with
    | some body =>
      simp only [data, Except.ok.injEq] at readied
      rw [← readied]
    | none =>
      cases upload : cli.uploadfileOption with
      | none =>
        simp only [data, upload, Except.ok.injEq] at readied
        rw [← readied]
      | some path =>
        simp only [data, upload] at readied
        cases content : world.readFile path with
        | none => simp [content] at readied
        | some bytes =>
          rw [content] at readied
          obtain ⟨filled, _, readied⟩ := bind_ok.mp readied
          rw [← Except.ok.inj readied]
          simp [content]

/-- An assembled request has the method and the body the options give. -/
theorem assembleRequest_method_body {world : BuildWorld} {cli : Cli} {uri : Uri} {request : Request}
    (assembled : assembleRequest world cli uri = .ok request) :
    request.method = givenMethod cli ∧ givenBody world cli = some request.body := by
  obtain ⟨map, prepared, _, _, readied, _, _, whole⟩ := assembleRequest_ok assembled
  rw [whole]
  exact ⟨finishRequest_method _ _ _ _, prepareBody_body readied⟩

/-- hyper's `Host` leaves the method and the body. -/
theorem IsWire.method_body {request wire : Request} (same : IsWire request wire) :
    wire.method = request.method ∧ wire.body = request.body := by
  rcases same with rfl | rfl
  · exact ⟨rfl, rfl⟩
  · rw [addHost]
    split_ifs
    · split
      · exact ⟨rfl, rfl⟩
      · exact ⟨rfl, rfl⟩
    · exact ⟨rfl, rfl⟩

/-- Every request that goes out, after any chain of redirects, has the method and the body that the
options give, with the files as its hop finds them. -/
theorem transmitted_method_body {Url : Type} (urls : UrlOps Url) (world : World) (cli : Cli)
    (before after : List Transmission) (transmission : Transmission)
    (sent : transmittedOf (httpRequestWithRedirects urls world cli).1 =
      before ++ transmission :: after) :
    transmission.request.method = givenMethod cli ∧
      givenBody (world before).build cli = some transmission.request.body := by
  have hops : ∀ past uri request known, assembleRequest (world past).build cli uri = .ok request →
      IsWire request known.request →
        (fun past (known : Transmission) => known.request.method = givenMethod cli ∧
          givenBody (world past).build cli = some known.request.body) past known := by
    intro past uri request known assembled wire
    have given := assembleRequest_method_body assembled
    rw [← wire.method_body.1, ← wire.method_body.2] at given
    exact given
  exact call_transmits_after hops sent

/-! ## Data before a `303` -/

/-- A `303` to `http://again/`. -/
def seeOtherResponse : Response :=
  { emptyResponse with
    status := 303
    headers := [(.location, { bytes := "http://again/".toList.map (UInt8.ofNat ·.toNat),
                              valid := by decide })] }

/-- A `303` at first, then a page. -/
def seeOther : World := fun past =>
  calmWorld fun _ => .answered (if past = [] then seeOtherResponse else emptyResponse)

/-- `rcurl -d k=v http://h/`. -/
def dataCli : Cli := { plainCli with bodyOption := some "k=v".toList }

/-- The data is submitted again, to `again`. -/
theorem see_other_resubmits : ¬ ∀ (world : World) (cli : Cli),
    SeeOtherRetrieves cli (httpRequestWithRedirects plainUrls world cli) := by
  intro retrieves
  have later : (httpRequestWithRedirects plainUrls seeOther dataCli).1.drop 2 =
      .received seeOtherResponse :: (httpRequestWithRedirects plainUrls seeOther dataCli).1.drop 3 := by
    decide
  have whole := (List.take_append_drop 2 (httpRequestWithRedirects plainUrls seeOther dataCli).1).symm
  rw [later] at whole
  obtain ⟨transmission, member, full⟩ : ∃ transmission ∈
      transmittedOf ((httpRequestWithRedirects plainUrls seeOther dataCli).1.drop 3),
        transmission.request.body ≠ .bytes [] := by decide
  exact full (retrieves seeOther dataCli _ _ _ whole rfl transmission member).2

/-- Both requests submit the data. -/
theorem see_other_method_body : ∃ first second,
    transmittedOf (httpRequestWithRedirects plainUrls seeOther dataCli).1 = [first, second] ∧
      second.request.method = "POST".toList ∧
        second.request.body = .bytes (Utf8.encode "k=v".toList) := by
  have two : (transmittedOf (httpRequestWithRedirects plainUrls seeOther dataCli).1).length = 2 := by
    decide
  obtain ⟨first, second, whole⟩ := List.length_eq_two.mp two
  have given := transmitted_method_body plainUrls seeOther dataCli [first] [] second whole
  have method : givenMethod dataCli = "POST".toList := by decide
  have body : givenBody (seeOther [first]).build dataCli =
      some (.bytes (Utf8.encode "k=v".toList)) := rfl
  rw [method, body, Option.some.injEq] at given
  exact ⟨first, second, whole, given.1, given.2.symm⟩

end Rcurl
