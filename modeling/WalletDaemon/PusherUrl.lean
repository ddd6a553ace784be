import WalletDaemon.PusherSession

/-! Where the notification connection goes. A valid key and cluster are read back from
the address, and nothing of them is read as another part of it. -/

namespace WalletDaemon.PusherSession

section Parts

/-- The generic syntax of an address with an authority. -/
structure UrlParts where
  scheme : List Char
  authority : List Char
  path : List Char
  query : Option (List Char)
  fragment : Option (List Char)
deriving DecidableEq, Repr

/-- The text up to a delimiter, and the rest from it on. -/
def upTo (delimiters text : List Char) : List Char × List Char :=
  (text.takeWhile (!delimiters.contains ·), text.dropWhile (!delimiters.contains ·))

def fragmentOf : List Char → Option (List Char)
  | '#' :: rest => some rest
  | _ => none

def urlParts (text : List Char) : Option UrlParts :=
  match upTo [':', '/', '?', '#'] text with
  | (scheme, ':' :: '/' :: '/' :: rest) =>
    let authority := upTo ['/', '?', '#'] rest
    let path := upTo ['?', '#'] authority.2
    match path.2 with
    | '?' :: rest =>
      let query := upTo ['#'] rest
      some ⟨scheme, authority.1, path.1, some query.1, fragmentOf query.2⟩
    | rest => some ⟨scheme, authority.1, path.1, none, fragmentOf rest⟩
  | _ => none

def Free (delimiters text : List Char) : Prop := text.all (!delimiters.contains ·) = true

theorem Free.passed {delimiters text : List Char} (free : Free delimiters text) :
    ∀ c ∈ text, (!delimiters.contains c) = true := List.all_eq_true.mp free

theorem Free.append {delimiters first second : List Char} (left : Free delimiters first)
    (right : Free delimiters second) : Free delimiters (first ++ second) := by
  rw [Free, List.all_append, Bool.and_eq_true]
  exact ⟨left, right⟩

theorem upTo_append {delimiters text rest : List Char} {c : Char} (free : Free delimiters text)
    (stop : (!delimiters.contains c) = false) :
    upTo delimiters (text ++ c :: rest) = (text, c :: rest) := by
  rw [upTo, List.takeWhile_append_of_pos free.passed, List.dropWhile_append_of_pos free.passed,
    List.takeWhile_cons_of_neg (by rw [stop]; exact Bool.false_ne_true),
    List.dropWhile_cons_of_neg (by rw [stop]; exact Bool.false_ne_true), List.append_nil]

theorem upTo_all {delimiters text : List Char} (free : Free delimiters text) :
    upTo delimiters text = (text, []) := by
  rw [upTo, List.takeWhile_eq_self_iff.mpr free.passed, List.dropWhile_eq_nil_iff.mpr free.passed]

theorem urlParts_join {scheme authority path query : List Char}
    (scheme_ : Free [':', '/', '?', '#'] scheme) (authority_ : Free ['/', '?', '#'] authority)
    (path_ : Free ['?', '#'] path) (query_ : Free ['#'] query) :
    urlParts (scheme ++ ':' :: '/' :: '/' :: (authority ++ '/' :: (path ++ '?' :: query))) =
      some ⟨scheme, authority, '/' :: path, some query, none⟩ := by
  have rooted : Free ['?', '#'] ('/' :: path) := path_
  rw [urlParts, upTo_append scheme_ rfl]
  simp only
  rw [upTo_append authority_ rfl]
  simp only
  rw [← List.cons_append, upTo_append rooted rfl]
  simp only
  rw [upTo_all query_]
  rfl

end Parts

def plain (c : Char) : Bool := c.isAlphanum || c = '-' || c = '_'

theorem free_of_valid {value : String} (valid : validComponent value = true)
    {delimiters : List Char} (special : delimiters.any plain = false) :
    Free delimiters value.toList := by
  refine List.all_eq_true.mpr fun c member => ?_
  have known : plain c = true := List.all_eq_true.mp ((Bool.and_eq_true _ _).mp valid).2 c member
  cases inside : delimiters.contains c with
  | false => rfl
  | true =>
    have found := List.any_eq_true.mpr ⟨c, List.contains_iff_mem.mp inside, known⟩
    rw [special] at found
    cases found

/-- The host, with one label of the cluster's. -/
def Settings.host (settings : Settings) : List Char :=
  "ws-".toList ++ (settings.cluster.toList ++ ".pusher.com".toList)

theorem host_free (settings : Settings) {delimiters : List Char}
    (special : delimiters.any plain = false) (front : Free delimiters "ws-".toList)
    (back : Free delimiters ".pusher.com".toList) : Free delimiters settings.host :=
  front.append ((free_of_valid settings.validCluster special).append back)

theorem url_toList (settings : Settings) : settings.url.toList =
    "wss".toList ++ ':' :: '/' :: '/' :: (settings.host ++ '/' ::
      (("app/".toList ++ settings.appKey.toList) ++ '?' :: "protocol=7".toList)) := by
  simp [Settings.url, Settings.host, String.toList_append]

theorem urlParts_url (settings : Settings) : urlParts settings.url.toList =
    some ⟨"wss".toList, settings.host, "/app/".toList ++ settings.appKey.toList,
      some "protocol=7".toList, none⟩ := by
  have key : Free ['?', '#'] ("app/".toList ++ settings.appKey.toList) :=
    Free.append rfl (free_of_valid settings.validKey rfl)
  have scheme : Free [':', '/', '?', '#'] "wss".toList := rfl
  have query : Free ['#'] "protocol=7".toList := rfl
  rw [url_toList, urlParts_join scheme (host_free settings rfl rfl rfl) key query]
  rfl

theorem splitOnP_free {separator : Char} {text : List Char} (free : Free [separator] text) :
    ∀ c ∈ text, (c == separator) = false := by
  intro c member
  have other := free.passed c member
  simpa [List.contains_cons, Bool.or_false] using other

/-- A valid key and cluster name exactly the service's host below its domain and the
application's path, without user, port or fragment, and an address is that of one
key and cluster. -/
theorem url_names_service (settings : Settings) :
    urlParts settings.url.toList =
      some ⟨"wss".toList, settings.host, "/app/".toList ++ settings.appKey.toList,
        some "protocol=7".toList, none⟩ ∧
    Free ['@', ':'] settings.host ∧
    settings.host.splitOnP (· == '.') =
      ["ws-".toList ++ settings.cluster.toList, "pusher".toList, "com".toList] ∧
    ("/app/".toList ++ settings.appKey.toList).splitOnP (· == '/') =
      [[], "app".toList, settings.appKey.toList] ∧
    ∀ other : Settings, other.url = settings.url → other = settings := by
  have dotless : Free ['.'] ("ws-".toList ++ settings.cluster.toList) :=
    Free.append rfl (free_of_valid settings.validCluster rfl)
  have pusher : Free ['.'] "pusher".toList := rfl
  have com : Free ['.'] "com".toList := rfl
  have slashless : Free ['/'] settings.appKey.toList := free_of_valid settings.validKey rfl
  have root : Free ['/'] [] := rfl
  have app : Free ['/'] "app".toList := rfl
  refine ⟨urlParts_url settings, host_free settings rfl rfl rfl, ?_, ?_, ?_⟩
  · have shape : settings.host =
        ("ws-".toList ++ settings.cluster.toList) ++ '.' :: ("pusher".toList ++ '.' :: "com".toList) := by
      simp [Settings.host]
    rw [shape, List.splitOnP_append_cons_of_forall_mem (splitOnP_free dotless) _ rfl,
      List.splitOnP_append_cons_of_forall_mem (splitOnP_free pusher) _ rfl,
      List.splitOnP_eq_singleton (splitOnP_free com)]
  · have shape : "/app/".toList ++ settings.appKey.toList =
        [] ++ '/' :: ("app".toList ++ '/' :: settings.appKey.toList) := by simp
    rw [shape, List.splitOnP_append_cons_of_forall_mem (splitOnP_free root) _ rfl,
      List.splitOnP_append_cons_of_forall_mem (splitOnP_free app) _ rfl,
      List.splitOnP_eq_singleton (splitOnP_free slashless)]
  · intro other same
    have equal := (urlParts_url other).symm.trans
      ((congrArg (urlParts ·.toList) same).trans (urlParts_url settings))
    simp only [Option.some.injEq, UrlParts.mk.injEq, true_and, and_true] at equal
    obtain ⟨host, path⟩ := equal
    have cluster : other.cluster = settings.cluster := by
      rw [Settings.host, Settings.host, List.append_cancel_left_eq, List.append_cancel_right_eq] at host
      exact String.toList_inj.mp host
    have key : other.appKey = settings.appKey :=
      String.toList_inj.mp (List.append_cancel_left path)
    cases other
    cases settings
    simp only at cluster key
    subst cluster key
    rfl

end WalletDaemon.PusherSession
