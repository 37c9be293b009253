import Rcurl.Http.Redirects

/-!
# Which credentials a redirect carries

Every hop builds its request from the same options, and nothing in the loop looks at the host of the
target. So a redirect to another host takes the cookie and the authorization along, and exactly those:
`transmitted_credentials` holds of every request of every chain, `redirect_leaks` shows a cookie that
reaches another host.
-/

namespace Rcurl

open ShellWords (Text)

/-- The cookie the options give: the last `-H Cookie`, else `-b`. -/
def givenCookie (cli : Cli) : Option HeaderValue :=
  (lastHeader .cookie cli.headers).or (cli.cookieOption.bind HeaderValue.fromStr)

/-- The authorization the options give: the last `-H Authorization`. -/
def givenAuthorization (cli : Cli) : Option HeaderValue := lastHeader .authorization cli.headers

/-- A request without the credentials of the options: neither the `-b` cookie nor a value that a `-H`
entry gives to `Cookie` or `Authorization`. -/
def WithoutCredentials (cli : Cli) (request : Request) : Prop :=
  (∀ value, cli.cookieOption.bind HeaderValue.fromStr = some value →
      value ∉ MultiMap.getAll .cookie request.headers) ∧
    ∀ name ∈ [HeaderName.cookie, HeaderName.authorization], ∀ entry ∈ cli.headers, ∀ value,
      headerEntryFor name entry = some value → value ∉ MultiMap.getAll name request.headers

/-- hyper's `Host` changes no other name. -/
theorem IsWire.getAll_eq {request wire : Request} (same : IsWire request wire) {name : HeaderName}
    (apart : name ≠ .host) :
    MultiMap.getAll name wire.headers = MultiMap.getAll name request.headers := by
  rcases same with rfl | rfl
  · rfl
  · rw [addHost]
    split_ifs
    · split
      · exact MultiMap.getAll_insert_of_ne apart _ _
      · rfl
    · rfl

/-- The value of the last entry for a name comes from an entry. -/
theorem lastHeader_mem {name : HeaderName} {entries : List Text} {value : HeaderValue}
    (last : lastHeader name entries = some value) :
    ∃ entry ∈ entries, headerEntryFor name entry = some value :=
  List.mem_filterMap.mp (List.mem_of_getLast? last)

/-- No option but `-H` gives an authorization. -/
theorem baseValue_authorization (cli : Cli) : baseValue cli .authorization = none := by
  rw [baseValue, if_neg (by decide), if_neg (by decide), if_neg (by decide)]

/-- A request with the credentials of the options is without them when the options give none. -/
theorem withoutCredentials_iff {cli : Cli} {request : Request}
    (cookie : MultiMap.getAll .cookie request.headers = (givenCookie cli).toList)
    (authorization : MultiMap.getAll .authorization request.headers =
      (givenAuthorization cli).toList) :
    WithoutCredentials cli request ↔ givenCookie cli = none ∧ givenAuthorization cli = none := by
  rw [WithoutCredentials, cookie]
  constructor
  · rintro ⟨plain, entries⟩
    constructor
    · rw [Option.eq_none_iff_forall_ne_some]
      intro value given
      have carried : value ∈ (givenCookie cli).toList := Option.mem_toList.mpr given
      rw [givenCookie, Option.or_eq_some_iff] at given
      rcases given with last | ⟨_, given⟩
      · obtain ⟨entry, member, gives⟩ := lastHeader_mem last
        have absent := entries .cookie (by decide) entry member value gives
        rw [cookie] at absent
        exact absent carried
      · exact plain value given carried
    · rw [Option.eq_none_iff_forall_ne_some]
      intro value given
      obtain ⟨entry, member, gives⟩ := lastHeader_mem given
      have absent := entries .authorization (by decide) entry member value gives
      rw [authorization] at absent
      exact absent (Option.mem_toList.mpr given)
  · rintro ⟨unbaked, unauthorized⟩
    rw [unbaked]
    refine ⟨fun value _ => List.not_mem_nil, ?_⟩
    intro name listed entry _ value _
    rcases List.mem_pair.mp listed with rfl | rfl
    · rw [cookie, unbaked]
      exact List.not_mem_nil
    · rw [authorization, unauthorized]
      exact List.not_mem_nil

/-- Every request that goes out, to whatever host, carries the credentials of the options and no
others; so it is without them only when the options give none. -/
theorem transmitted_credentials {Url : Type} (urls : UrlOps Url) (world : World) (cli : Cli) :
    ∀ transmission ∈ transmittedOf (httpRequestWithRedirects urls world cli).1,
      MultiMap.getAll .cookie transmission.request.headers = (givenCookie cli).toList ∧
        MultiMap.getAll .authorization transmission.request.headers =
            (givenAuthorization cli).toList ∧
          (WithoutCredentials cli transmission.request ↔
            givenCookie cli = none ∧ givenAuthorization cli = none) := by
  apply call_transmits
  intro past uri request transmission assembled wire
  have cookie : MultiMap.getAll .cookie transmission.request.headers =
      (givenCookie cli).toList := by
    rw [wire.getAll_eq (by decide), assembleRequest_values assembled .cookie (by decide)]
    rfl
  have authorization : MultiMap.getAll .authorization transmission.request.headers =
      (givenAuthorization cli).toList := by
    rw [wire.getAll_eq (by decide), assembleRequest_values assembled .authorization (by decide),
      baseValue_authorization, Option.or_none, givenAuthorization]
  exact ⟨cookie, authorization, withoutCredentials_iff cookie authorization⟩

/-! ## A redirect to another host -/

/-- A redirect to `http://g/` at first, then a page. -/
def elsewhere : World := fun past =>
  calmWorld fun _ => .answered <|
    if past = [] then
      { emptyResponse with
        status := 302
        headers := [(.location, { bytes := "http://g/".toList.map (UInt8.ofNat ·.toNat),
                                  valid := by decide })] }
    else emptyResponse

/-- `rcurl -b k=v http://h/`. -/
def cookieCli : Cli := { plainCli with cookieOption := some "k=v".toList }

/-- The cookie as a header value. -/
def cookieValue : HeaderValue where
  bytes := "k=v".toList.map (UInt8.ofNat ·.toNat)
  valid := by decide

/-- The cookie for `h` reaches `g`. -/
theorem redirect_leaks : ¬ ∀ (world : World) (cli : Cli) (text : Text) (url : Uri),
    cli.url = some text → plainUrls.parse text = some url →
      ∀ transmission ∈ transmittedOf (httpRequestWithRedirects plainUrls world cli).1,
        transmission.request.uri.host ≠ url.host → WithoutCredentials cli transmission.request := by
  intro clean
  have parsed : plainUrls.parse "http://h/".toList = some plainUri := by decide
  have leak : ∃ transmission ∈
      transmittedOf (httpRequestWithRedirects plainUrls elsewhere cookieCli).1,
        transmission.request.uri.host ≠ plainUri.host ∧
          cookieValue ∈ MultiMap.getAll .cookie transmission.request.headers := by decide
  obtain ⟨transmission, member, apart, carried⟩ := leak
  have without := clean elsewhere cookieCli _ _ rfl parsed transmission member apart
  have baked : cookieCli.cookieOption.bind HeaderValue.fromStr = some cookieValue := by decide
  exact without.1 cookieValue baked carried

/-- The request to `g` carries what the options give. -/
theorem elsewhere_credentials : ∃ transmission ∈
    transmittedOf (httpRequestWithRedirects plainUrls elsewhere cookieCli).1,
      transmission.request.uri.host ≠ plainUri.host ∧
        MultiMap.getAll .cookie transmission.request.headers = (givenCookie cookieCli).toList ∧
          MultiMap.getAll .authorization transmission.request.headers =
              (givenAuthorization cookieCli).toList ∧
            (WithoutCredentials cookieCli transmission.request ↔
              givenCookie cookieCli = none ∧ givenAuthorization cookieCli = none) := by
  have reached : ∃ transmission ∈
      transmittedOf (httpRequestWithRedirects plainUrls elsewhere cookieCli).1,
        transmission.request.uri.host ≠ plainUri.host := by decide
  obtain ⟨transmission, member, apart⟩ := reached
  exact ⟨transmission, member, apart,
    transmitted_credentials plainUrls elsewhere cookieCli transmission member⟩

end Rcurl
