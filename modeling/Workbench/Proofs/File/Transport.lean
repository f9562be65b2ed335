import Workbench.Proofs.File.Answers
import Workbench.Proofs.File.Naming
import Workbench.Proofs.File.Peer

/-! # Calls through the web interface

Whoever makes a call through the interface gets the answer that the files in memory give,
the kind of a failure and the path it names included, and the files are afterwards as if
the call had been made to them. -/

namespace Workbench

open Json Rest Text Url

namespace Rest

/-- The query that a payload is sent with. -/
def Payload.queryText : Payload → List Char
  | .query path => ("?path=" ++ percentEncode path).toList
  | .json _ => []

/-- The body that a payload is sent with. -/
def Payload.body? : Payload → Option Json
  | .query _ => none
  | .json body => some body

theorem Payload.plainQuery (payload : Payload) : PlainQuery payload.queryText := by
  cases payload with
  | query path =>
      have hname : ∀ c ∈ "path=".toList, standsInAddress c = true :=
        List.all_eq_true.mp (by decide)
      refine .inr ⟨"path=".toList ++ (percentEncode path).toList, String.toList_append,
        fun c hc => ?_⟩
      rcases List.mem_append.mp hc with hfirst | hpath
      · exact hname c hfirst
      · exact standsInAddress_percentEncode path c hpath
  | json body => exact .inl rfl

/-- The client has the address of a peer whose requests have targets below the root, and
shows a token that can be sent. -/
structure Client.Reaches (client : Client) (root : String) : Prop where
  noQuery : '?' ∉ client.base.toList
  noFragment : '#' ∉ client.base.toList
  address : (Url.parse (client.base ++ "/")).map (·.target) = some root
  token : ∀ token ∈ client.token, ("Bearer " ++ token).toList.all isHeaderChar = true

variable {client : Client} {root : String} {steps : List String}

/-- A request is made, and its target has endpoint and query below the root. -/
theorem exists_request (h : client.Reaches root) (hne : steps ≠ [])
    (hsteps : ∀ step ∈ steps, PlainStep step) (verb : String) (payload : Payload) :
    ∃ request, request? client verb ("/".intercalate steps) payload = some request ∧
      request.verb = verb ∧
      request.target = root ++ ("/".intercalate steps ++ String.ofList payload.queryText) ∧
      request.body = payload.body? := by
  obtain ⟨url, hurl, hroot⟩ := Option.map_eq_some_iff.mp h.address
  have hbelow := parse_below h.noQuery h.noFragment hurl hne hsteps payload.plainQuery
  have htoken : ((client.token.map fun token => "Bearer " ++ token).getD "").toList.all
      isHeaderChar = true := by
    cases htoken : client.token with
    | none => rfl
    | some token => exact h.token token htoken
  unfold request?
  cases payload with
  | query path =>
      have haddress : client.base ++ "/" ++ "/".intercalate steps ++ "?path=" ++
          percentEncode path =
          client.base ++ "/" ++ ("/".intercalate steps ++
            String.ofList (Payload.query path).queryText) := by
        rw [Payload.queryText, String.ofList_toList, String.append_assoc, String.append_assoc]
      simp only [haddress, hbelow, Option.bind_eq_bind, Option.bind_some, htoken, if_true]
      exact ⟨_, rfl, rfl, by rw [hroot], rfl⟩
  | json body =>
      have haddress : client.base ++ "/" ++ "/".intercalate steps =
          client.base ++ "/" ++ ("/".intercalate steps ++
            String.ofList (Payload.json body).queryText) := by
        simp [Payload.queryText]
      simp only [haddress, hbelow, Option.bind_eq_bind, Option.bind_some, htoken, if_true]
      exact ⟨_, rfl, rfl, by rw [hroot], rfl⟩

/-- The peer finds endpoint and query as they were sent. -/
theorem call?_eq_asked? {request : Rest.Request} {endpoint : String} {query : List Char}
    (hquery : PlainQuery query) (hmark : '?' ∉ endpoint.toList)
    (htarget : request.target = root ++ (endpoint ++ String.ofList query)) :
    MemoryPeer.call? root request = MemoryPeer.asked? request.verb endpoint query request.body := by
  obtain ⟨hpath, hrest⟩ := hquery.split hmark
  have hbelow : root.toList.isPrefixOf? request.target.toList =
      some (endpoint.toList ++ query) := by
    rw [List.isPrefixOf?_eq_some_iff_append_eq, htarget]
    simp
  rw [MemoryPeer.call?, hbelow, Option.bind_some, hpath, hrest, String.ofList_toList]

/-- A request whose call the peer recovers is replied to with what the call answers. -/
theorem send_eq {peer : MemoryPeer} (h : client.Reaches peer.root) (hne : steps ≠ [])
    (hsteps : ∀ step ∈ steps, PlainStep step) {verb : String} {payload : Payload} {call : Call}
    (hcall : MemoryPeer.asked? verb ("/".intercalate steps) payload.queryText payload.body? =
      some call) (path : String) (refusals : Refusals) :
    Files.send { client, peer } verb ("/".intercalate steps) payload path refusals =
      (if (MemoryPeer.reply peer.mismatch (call.make peer.files).1).status < 400 then
          .ok (MemoryPeer.reply peer.mismatch (call.make peer.files).1)
        else
          .error (refusal path refusals (MemoryPeer.reply peer.mismatch (call.make peer.files).1)),
        { client, peer := { peer with files := (call.make peer.files).2 } }) := by
  obtain ⟨request, hrequest, rfl, htarget, hbody⟩ := exists_request h hne hsteps verb payload
  have hmark := not_mem_intercalate hsteps (d := '?') (by decide) (by decide)
  rw [← hbody, ← call?_eq_asked? payload.plainQuery hmark htarget] at hcall
  have hanswer : Peer.answer request peer =
      (some (MemoryPeer.reply peer.mismatch (call.make peer.files).1),
        { peer with files := (call.make peer.files).2 }) := by
    simp only [Peer.answer, hcall]
  rw [Files.send, hrequest]
  dsimp only
  rw [hanswer]
  dsimp only
  split <;> rfl

/-- An answer is carried through the interface if its value is read back and its refusal is
told by a status of its own. -/
structure Carries {α : Type} (mismatch : Nat) (write : α → Json)
    (read : Response → Except FileError α) (path : String) (refusals : Refusals)
    (answer : Except FileError α) : Prop where
  value : ∀ a, answer = .ok a → read { status := 200, body := (write a).render } = .ok a
  refusal : ∀ error, answer = .error error → 400 ≤ MemoryPeer.status mismatch error ∧
    ∀ body, refusal path refusals { status := MemoryPeer.status mismatch error, body } = error

/-- An answer that is carried arrives as it was given. -/
theorem andThen_send {peer : MemoryPeer} (h : client.Reaches peer.root) (hne : steps ≠ [])
    (hsteps : ∀ step ∈ steps, PlainStep step) {verb : String} {payload : Payload} {call : Call}
    (hcall : MemoryPeer.asked? verb ("/".intercalate steps) payload.queryText payload.body? =
      some call) {path : String} {refusals : Refusals} {α : Type} {write : α → Json}
    {read : Response → Except FileError α} {answer : Except FileError α}
    (hreply : MemoryPeer.reply peer.mismatch (call.make peer.files).1 =
      MemoryPeer.response peer.mismatch write answer)
    (hcarries : Carries peer.mismatch write read path refusals answer) :
    andThen read (Files.send { client, peer } verb ("/".intercalate steps) payload path refusals) =
      (answer, { client, peer := { peer with files := (call.make peer.files).2 } }) := by
  rw [send_eq h hne hsteps hcall, hreply, andThen]
  cases answer with
  | ok a => exact Prod.ext (hcarries.value a rfl) rfl
  | error error =>
      obtain ⟨hstatus, hsame⟩ := hcarries.refusal error rfl
      rw [MemoryPeer.response, if_neg (Nat.not_lt.mpr hstatus), hsame]
      rfl

theorem readBody_render {α : Type} {write : α → Json} {read : Json → Option α} {a : α}
    (hplain : (write a).Plain) (hread : read (write a) = some a) :
    readBody read { status := 200, body := (write a).render } = .ok a := by
  have hcontent : (Response.mk 200 (write a).render).content = (write a).render := rfl
  rw [readBody, hcontent, hplain.parse_render, Option.bind_some, hread]

end Rest

/-! ## Files that are ready -/

namespace MemoryFiles

/-- No failure is planned, and sizes and times fit into words, also those of some stores to
come. -/
structure Ready (m : MemoryFiles) (stores : Nat) : Prop where
  unplanned : m.failures = []
  files : m.files.All fun file => InWords (byteSize file.content) (some file.modified)
  clock : ∀ n ≤ stores, Word.fitsSigned (m.clock + n) = true

variable {m : MemoryFiles} {left : Nat}

theorem Ready.fetchFile (h : m.Ready left) {path : String} {content : FileContent}
    (hfound : (FileService.fetchFile path m).1 = .ok content) :
    InWords content.size content.modified := by
  change (calling .read path (fun m => (m.read path, m)) m).1 = _ at hfound
  rw [calling_of_unplanned h.unplanned] at hfound
  change (m.noted .read path).read path = _ at hfound
  unfold MemoryFiles.read at hfound
  split at hfound
  next file hfile =>
    obtain rfl := Except.ok.inj hfound
    exact h.files path file hfile
  next => cases hfound

theorem Ready.storeFile (h : m.Ready (left + 1)) {path content : String} {encoding : Encoding}
    {expected : Option String} (hsize : Word.fits (byteSize content) = true) {stored : WriteResult}
    (hstored : (FileService.storeFile path content encoding expected m).1 = .ok stored) :
    InWords stored.size stored.modified := by
  change (calling .write path (write path content encoding expected) m).1 = _ at hstored
  rw [calling_of_unplanned h.unplanned] at hstored
  rcases write_cases path content encoding expected (m.noted .write path) with hstale | hwritten
  · rw [hstale] at hstored
    cases hstored
  · rw [hwritten] at hstored
    obtain rfl := Except.ok.inj hstored
    refine ⟨hsize, fun time htime => ?_⟩
    obtain rfl := Option.some.inj htime
    exact h.clock 1 (Nat.le_add_left 1 left)

theorem Ready.list (h : m.Ready left) (path : String) :
    ∀ entry ∈ m.list path, InWords entry.size entry.modified := by
  intro entry hentry
  rcases List.mem_append.mp hentry with hfolder | hfile
  · obtain ⟨folder, -, rfl⟩ := List.mem_map.mp hfolder
    exact ⟨show Word.fits 0 = true by decide, nofun⟩
  · obtain ⟨⟨key, file⟩, hmem, rfl⟩ := List.mem_map.mp hfile
    exact h.files key file (m.files.get?_eq_some_iff.mpr (List.mem_filter.mp hmem).1)

theorem Ready.store (h : m.Ready (left + 1)) (path : String) {content : String}
    (encoding : Encoding) (hsize : Word.fits (byteSize content) = true) :
    (m.store path content encoding).2.Ready left where
  unplanned := h.unplanned
  files := by
    refine h.files.insert path ⟨hsize, fun time htime => ?_⟩
    obtain rfl := Option.some.inj htime
    exact h.clock 1 (Nat.le_add_left 1 left)
  clock n hn := by
    have hlater := h.clock (n + 1) (Nat.add_le_add_right hn 1)
    rwa [Int.natCast_succ, Int.add_comm (n : Int) 1, ← Int.add_assoc] at hlater

theorem Ready.write (h : m.Ready (left + 1)) (path : String) {content : String}
    (encoding : Encoding) (expected : Option String) (hsize : Word.fits (byteSize content) = true) :
    (m.write path content encoding expected).2.Ready left := by
  rcases write_cases path content encoding expected m with hstale | hstored
  · rw [hstale]
    exact ⟨h.unplanned, h.files, fun n hn => h.clock n (Nat.le_add_right_of_le hn)⟩
  · rw [hstored]
    exact h.store path encoding hsize

theorem Ready.rename (h : m.Ready left) (oldPath newPath : String) :
    (m.rename oldPath newPath).2.Ready left := by
  have hfiles := all_rename h.files oldPath newPath
  have hcases := renames_rename oldPath newPath m
  generalize m.rename oldPath newPath = answered at hcases hfiles ⊢
  cases hcases with
  | refused => exact h
  | file => exact ⟨h.unplanned, hfiles, h.clock⟩
  | folder => exact ⟨h.unplanned, hfiles, h.clock⟩

theorem Ready.delete (h : m.Ready left) (path : String) : (m.delete path).2.Ready left := by
  have hfiles := all_delete h.files path
  revert hfiles
  unfold MemoryFiles.delete
  split
  · exact fun hfiles => ⟨h.unplanned, hfiles, h.clock⟩
  · split
    · exact fun _ => h
    · exact fun hfiles => ⟨h.unplanned, hfiles, h.clock⟩

theorem ready_empty {stores : Nat} (hstores : Word.fitsSigned stores = true) :
    empty.Ready stores where
  unplanned := rfl
  files := nofun
  clock n hn := by
    rw [Word.fitsSigned_iff] at hstores ⊢
    dsimp only [empty]
    omega

theorem ready_calling {α : Type} {call : FileCall} {path : String}
    {answer : MemoryFiles → Except FileError α × MemoryFiles} {after : Nat} (h : m.Ready left)
    (hanswer : ∀ m, Ready m left → Ready (answer m).2 after) :
    (calling call path answer m).2.Ready after := by
  rw [calling_of_unplanned h.unplanned]
  exact hanswer _ ⟨h.unplanned, h.files, h.clock⟩

end MemoryFiles

namespace Call

/-- The size of what is to be stored fits into a word. -/
def InWords : Call → Prop
  | .store _ content _ _ => Word.fits (byteSize content) = true
  | .fetch _ | .move .. | .remove _ | .list _ => True

instance (call : Call) : Decidable call.InWords :=
  match call with
  | .store _ content _ _ => inferInstanceAs (Decidable (Word.fits (byteSize content) = true))
  | .fetch _ | .move .. | .remove _ | .list _ => inferInstanceAs (Decidable True)

/-- How far a call moves the clock at most. -/
def stores : Call → Nat
  | .store .. => 1
  | .fetch _ | .move .. | .remove _ | .list _ => 0

/-- How far calls move the clock at most. -/
def storesOf : List Call → Nat
  | [] => 0
  | call :: rest => storesOf rest + call.stores

/-- Makes calls one after another and tells their answers. -/
def makeAll {σ : Type} [FileService σ] : List Call → σ → List Exchange × σ
  | [], service => ([], service)
  | call :: rest, service =>
      let (exchange, service) := call.make service
      let (exchanges, service) := makeAll rest service
      (exchange :: exchanges, service)

/-- After a call the files are ready for the stores that are left. -/
theorem ready_make {m : MemoryFiles} {left : Nat} {call : Call}
    (h : m.Ready (left + call.stores)) (hcall : call.InWords) : (call.make m).2.Ready left := by
  cases call with
  | fetch path => exact MemoryFiles.ready_calling h fun _ hm => hm
  | store path content encoding expected =>
      exact MemoryFiles.ready_calling h fun _ hm => hm.write path encoding expected hcall
  | move oldPath newPath => exact MemoryFiles.ready_calling h fun _ hm => hm.rename oldPath newPath
  | remove path => exact MemoryFiles.ready_calling h fun _ hm => hm.delete path
  | list path => exact h

end Call

/-! ## Call by call -/

section Carried

variable {client : Client} {peer : MemoryPeer} (h : client.Reaches peer.root) {left : Nat}

/-- The call is answered through the interface as by the files, and changes them alike. -/
def Carried (client : Client) (peer : MemoryPeer) (call : Call) : Prop :=
  call.make ({ client, peer } : Files MemoryPeer) =
    ((call.make peer.files).1, { client, peer := { peer with files := (call.make peer.files).2 } })

/-- A call is carried if the request for it asks for it, and its answer is carried. -/
theorem carried_of_carries (h : client.Reaches peer.root) {steps : List String} (hne : steps ≠ [])
    (hsteps : ∀ step ∈ steps, PlainStep step) {verb : String} {payload : Payload} {call : Call}
    (hasked : MemoryPeer.asked? verb ("/".intercalate steps) payload.queryText payload.body? =
      some call) {α : Type} {tell : Except FileError α → Exchange} {answer : Except FileError α}
    {path : String} {refusals : Refusals} {write : α → Json}
    {read : Response → Except FileError α}
    (hmade : call.make ({ client, peer } : Files MemoryPeer) =
      Prod.map tell id (andThen read
        (Files.send { client, peer } verb ("/".intercalate steps) payload path refusals)))
    (hdirect : (call.make peer.files).1 = tell answer)
    (hreply : MemoryPeer.reply peer.mismatch (tell answer) =
      MemoryPeer.response peer.mismatch write answer)
    (hcarries : Carries peer.mismatch write read path refusals answer) :
    Carried client peer call := by
  have hsent := andThen_send h hne hsteps hasked ((congrArg _ hdirect).trans hreply) hcarries
  rw [Carried, hmade, hsent, hdirect]
  rfl

theorem queried?_queryText (path : String) :
    MemoryPeer.queried? (Payload.query path).queryText = some path := by
  have hwritten : "?path=".toList.isPrefixOf? (Payload.query path).queryText =
      some (percentEncode path).toList := by
    rw [List.isPrefixOf?_eq_some_iff_append_eq, Payload.queryText, String.toList_append]
  rw [MemoryPeer.queried?, hwritten, Option.bind_some, String.ofList_toList,
    percentDecode_percentEncode]

theorem storing?_writeBody (path content : String) (encoding : Encoding)
    (expected : Option String) :
    MemoryPeer.storing? (writeBody path content encoding expected) =
      some (.store path content encoding expected) := by
  cases expected with
  | none =>
      rw [MemoryPeer.storing?, writeBody, List.append_nil, fields?_ofNamed (by simp)]
      simp [member?, required, text?, Encoding.ofJson?_toJson, defaulted]
  | some etag =>
      rw [MemoryPeer.storing?, writeBody, fields?_ofNamed (by simp)]
      simp [member?, required, text?, Encoding.ofJson?_toJson, defaulted, nullable]

theorem moving?_renameBody (oldPath newPath : String) :
    MemoryPeer.moving? (renameBody oldPath newPath) = some (.move oldPath newPath) := by
  rw [MemoryPeer.moving?, renameBody, fields?_ofNamed (by simp)]
  simp [member?, required, text?]

theorem plain_listing (entries : List DirEntry) : (MemoryPeer.listing entries).Plain := by
  refine .record (List.forall_mem_singleton.mpr (.list ?_))
  exact List.forall_mem_map.mpr fun entry _ => entry.plain_toJson

theorem listing?_listing {entries : List DirEntry}
    (h : ∀ entry ∈ entries, InWords entry.size entry.modified) :
    listing? (MemoryPeer.listing entries) = some entries := by
  rw [listing?, MemoryPeer.listing, fields?_ofNamed (by simp)]
  simp [member?, defaulted,
    listOf?_map fun entry hentry => DirEntry.ofJson?_toJson (h entry hentry)]

include h

theorem carried_fetch (hready : peer.files.Ready left) (path : String) :
    Carried client peer (.fetch path) := by
  have hasked : MemoryPeer.asked? "GET" ("/".intercalate ["files", "content"])
      (Payload.query path).queryText (Payload.query path).body? = some (.fetch path) := by
    change (MemoryPeer.queried? _).map Call.fetch = _
    rw [queried?_queryText, Option.map_some]
  have hcarries : Carries peer.mismatch FileContent.toJson (readBody FileContent.ofJson?) path .none
      (FileService.fetchFile path peer.files).1 := by
    constructor
    case value =>
      intro content hfound
      exact readBody_render content.plain_toJson
        (FileContent.ofJson?_toJson (hready.fetchFile hfound))
    case refusal =>
      intro error hrefused
      obtain rfl := MemoryFiles.error_of_fetchFile hready.unplanned hrefused
      exact ⟨by simp [MemoryPeer.status], fun _ => rfl⟩
  exact carried_of_carries h (by simp) (by decide) hasked rfl rfl rfl hcarries

theorem carried_store (hmismatch : peer.mismatch = 412 ∨ peer.mismatch = 409)
    (hready : peer.files.Ready (left + 1)) {path content : String} {encoding : Encoding}
    {expected : Option String} (hsize : Word.fits (byteSize content) = true) :
    Carried client peer (.store path content encoding expected) := by
  have hasked : MemoryPeer.asked? "PUT" ("/".intercalate ["files", "content"])
      (Payload.json (writeBody path content encoding expected)).queryText
      (Payload.json (writeBody path content encoding expected)).body? =
        some (.store path content encoding expected) :=
    storing?_writeBody path content encoding expected
  have hcarries : Carries peer.mismatch WriteResult.toJson (readBody WriteResult.ofJson?) path
      (.ofWrite path) (FileService.storeFile path content encoding expected peer.files).1 := by
    constructor
    case value =>
      intro write hstored
      exact readBody_render write.plain_toJson
        (WriteResult.ofJson?_toJson (hready.storeFile hsize hstored))
    case refusal =>
      intro error hrefused
      obtain rfl := MemoryFiles.error_of_storeFile hready.unplanned hrefused
      rcases hmismatch with hstatus | hstatus <;>
      · rw [MemoryPeer.status, hstatus]
        exact ⟨by decide, fun _ => rfl⟩
  exact carried_of_carries h (by simp) (by decide) hasked rfl rfl rfl hcarries

theorem carried_move (hready : peer.files.Ready left) (oldPath newPath : String) :
    Carried client peer (.move oldPath newPath) := by
  have hasked : MemoryPeer.asked? "POST" ("/".intercalate ["files", "rename"])
      (Payload.json (renameBody oldPath newPath)).queryText
      (Payload.json (renameBody oldPath newPath)).body? = some (.move oldPath newPath) :=
    moving?_renameBody oldPath newPath
  have hcarries : Carries peer.mismatch (fun _ => .null) (fun _ => .ok ()) oldPath
      (.ofRename newPath) (FileService.movePath oldPath newPath peer.files).1 := by
    constructor
    case value => exact fun _ _ => rfl
    case refusal =>
      intro error hrefused
      rcases MemoryFiles.error_of_movePath hready.unplanned hrefused with rfl | rfl <;>
        exact ⟨by simp [MemoryPeer.status], fun _ => rfl⟩
  exact carried_of_carries h (by simp) (by decide) hasked rfl rfl rfl hcarries

theorem carried_remove (hready : peer.files.Ready left) (path : String) :
    Carried client peer (.remove path) := by
  have hasked : MemoryPeer.asked? "DELETE" ("/".intercalate ["files"])
      (Payload.query path).queryText (Payload.query path).body? = some (.remove path) := by
    change (MemoryPeer.queried? _).map Call.remove = _
    rw [queried?_queryText, Option.map_some]
  have hcarries : Carries peer.mismatch (fun _ => .null) (fun _ => .ok ()) path .none
      (FileService.removePath path peer.files).1 := by
    constructor
    case value => exact fun _ _ => rfl
    case refusal =>
      intro error hrefused
      obtain rfl := MemoryFiles.error_of_removePath hready.unplanned hrefused
      exact ⟨by simp [MemoryPeer.status], fun _ => rfl⟩
  exact carried_of_carries h (by simp) (by decide) hasked rfl rfl rfl hcarries

theorem carried_list (hready : peer.files.Ready left) (path : String) :
    Carried client peer (.list path) := by
  have hasked : MemoryPeer.asked? "GET" ("/".intercalate ["files", "list"])
      (Payload.query path).queryText (Payload.query path).body? = some (.list path) := by
    change (MemoryPeer.queried? _).map Call.list = _
    rw [queried?_queryText, Option.map_some]
  have hcarries : Carries peer.mismatch MemoryPeer.listing (readBody listing?) path .none
      (FileService.listFolder path peer.files).1 := by
    constructor
    case value =>
      intro entries hlisted
      obtain rfl := Except.ok.inj hlisted
      exact readBody_render (plain_listing _) (listing?_listing (hready.list path))
    case refusal => exact fun _ hrefused => nomatch hrefused
  exact carried_of_carries h (by simp) (by decide) hasked rfl rfl rfl hcarries

theorem carried_of_ready (hmismatch : peer.mismatch = 412 ∨ peer.mismatch = 409) {call : Call}
    (hready : peer.files.Ready (left + call.stores)) (hcall : call.InWords) :
    Carried client peer call := by
  cases call with
  | fetch path => exact carried_fetch h hready path
  | store path content encoding expected => exact carried_store h hmismatch hready hcall
  | move oldPath newPath => exact carried_move h hready oldPath newPath
  | remove path => exact carried_remove h hready path
  | list path => exact carried_list h hready path

end Carried

/-! ## One call after another -/

/-- **Faithful transport.** Whoever makes calls through the interface gets every answer that
the files in memory give to the same calls, and leaves the files as those calls do. -/
theorem makeAll_through_interface {client : Client} {peer : MemoryPeer} {calls : List Call}
    (hreaches : client.Reaches peer.root) (hmismatch : peer.mismatch = 412 ∨ peer.mismatch = 409)
    (hready : peer.files.Ready (Call.storesOf calls))
    (hwords : ∀ call ∈ calls, call.InWords) :
    Call.makeAll calls ({ client, peer } : Files MemoryPeer) =
      ((Call.makeAll calls peer.files).1,
        { client, peer := { peer with files := (Call.makeAll calls peer.files).2 } }) := by
  induction calls generalizing peer with
  | nil => rfl
  | cons call rest ih =>
      obtain ⟨hcall, hrest⟩ := List.forall_mem_cons.mp hwords
      have hcarried : Carried client peer call := carried_of_ready hreaches hmismatch hready hcall
      have hlater := @ih { peer with files := (call.make peer.files).2 } hreaches hmismatch
        (Call.ready_make hready hcall) hrest
      rw [Call.makeAll, hcarried]
      dsimp only
      rw [hlater]
      rfl

/-- A file is read, replaced at a stale version, and moved onto the folder it is in, through a
peer that has it. -/
theorem makeAll_through_localInterface :
    let client := Client.ofBase "http://127.0.0.1:8080/api/" (some "secret")
    let files := (MemoryFiles.empty.put "docs/größe 1.md" "a & b").2
    let peer : MemoryPeer := { root := "/api/", mismatch := 412, files }
    let calls : List Call :=
      [.fetch "docs/größe 1.md", .store "docs/größe 1.md" "c" .utf8 (some "stale"),
        .move "docs/größe 1.md" "docs", .list "docs"]
    Call.makeAll calls ({ client, peer } : Files MemoryPeer) =
        ((Call.makeAll calls files).1,
          { client, peer := { peer with files := (Call.makeAll calls files).2 } }) ∧
      (Call.makeAll calls files).1.drop 1 =
        [.store "docs/größe 1.md" "c" .utf8 (some "stale")
            (.error (.versionMismatch "docs/größe 1.md")),
          .move "docs/größe 1.md" "docs" (.error (.alreadyExists "docs")),
          .list "docs" (.ok [⟨"docs/größe 1.md", .file, 5, some 1⟩])] :=
  have hstored : (MemoryFiles.empty.put "docs/größe 1.md" "a & b").2.Ready 1 :=
    (MemoryFiles.ready_empty (by decide)).store _ .utf8 (by decide)
  ⟨makeAll_through_interface
      { noQuery := by decide, noFragment := by decide, address := by decide, token := by decide }
      (.inl rfl) hstored (by decide),
    by decide +kernel⟩

end Workbench
