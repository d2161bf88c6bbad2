import RowLedger.Config
import RowLedger.Proofs.Text.Blank
import RowLedger.Proofs.Text.Woven

/-!
What the text of a connection tells about its settings. The values are written as they are between
the names of the settings: a configuration is known by its text exactly if no such name, with the
semicolon before it, stands in a value next to it, and the server does not end as with a port.
-/

namespace RowLedger.Config

variable {c d : Config}

/-- A configuration for SQL Server with a user. -/
structure NamesUser (c : Config) : Prop where
  dialect : c.dialect = .sqlServer
  user : c.user.isSome = true
  port : ∀ p ∈ c.port, p < 65536

def serverName (c : Config) : String := c.server.getD "localhost"

def portText (c : Config) : String :=
  match c.port with
  | some p => "," ++ Text.showInt p
  | none => ""

/-- The server with its port. -/
def address (c : Config) : String := c.serverName ++ c.portText

/-- The same settings, one that is absent counting as what is written for it. -/
structure SameSettings (c d : Config) : Prop where
  server : c.serverName = d.serverName
  port : c.port = d.port
  database : c.database = d.database
  user : c.user = d.user
  password : c.password.getD "" = d.password.getD ""

/-- No configuration with other settings has the same text. -/
def Identified (c : Config) : Prop :=
  ∀ d : Config, d.NamesUser → d.connectionString = c.connectionString → d.SameSettings c

/-- The settings behind the address, each with the name before it. -/
def parts (c : Config) : List (List Char × List Char) :=
  [(';' :: "Initial Catalog=".toList, c.database.toList),
    (';' :: "User ID=".toList, (c.user.getD "").toList),
    (';' :: "Password=".toList, (c.password.getD "").toList)]

/-- No name of a setting stands, with its semicolon, in the value before it or behind it. -/
def MarksApart (c : Config) : Prop := Text.Apart c.address.toList c.parts

/-- The address ends in a comma and a number that can be a port. -/
def EndsInPort (c : Config) : Prop :=
  ∃ (s : String) (p : Nat), p < 65536 ∧ c.address = s ++ ("," ++ Text.showInt p)

/-! The text as a weave. -/

theorem isMark_parts (c : Config) : ∀ p ∈ c.parts, Text.IsMark ';' p.1 := by
  intro p hp
  simp only [parts, List.mem_cons, List.not_mem_nil, or_false] at hp
  rcases hp with rfl | rfl | rfl
  all_goals exact ⟨_, rfl, by decide⟩

theorem map_fst_parts (c d : Config) : c.parts.map Prod.fst = d.parts.map Prod.fst := rfl

theorem toList_connectionString (h : c.user.isSome = true) : c.connectionString.toList =
    "Data Source=TCP:".toList ++ (Text.woven c.address.toList c.parts ++ [';']) := by
  obtain ⟨u, hu⟩ := Option.isSome_iff_exists.1 h
  have hsemicolon : ";".toList = [';'] := rfl
  have hcatalog : ";Initial Catalog=".toList = ';' :: "Initial Catalog=".toList := rfl
  have hpassword : ";Password=".toList = ';' :: "Password=".toList := rfl
  have htext : c.connectionString = "Data Source=TCP:" ++ c.serverName ++ c.portText ++
      ";Initial Catalog=" ++ c.database ++ ";" ++
        ("User ID=" ++ u ++ ";Password=" ++ c.password.getD "" ++ ";") := by
    unfold connectionString
    rw [hu]
    rfl
  rw [htext, address, parts, hu, Text.woven]
  simp only [String.toList_append, hsemicolon, hcatalog, hpassword, List.flatMap_cons,
    List.flatMap_nil, List.append_assoc, List.cons_append, List.nil_append, List.append_nil,
    Option.getD_some]

theorem connectionString_eq_iff (hc : c.user.isSome = true) (hd : d.user.isSome = true) :
    d.connectionString = c.connectionString ↔
      Text.woven d.address.toList d.parts = Text.woven c.address.toList c.parts := by
  rw [← String.toList_inj, toList_connectionString hc, toList_connectionString hd,
    List.append_cancel_left_eq, List.append_cancel_right_eq]

theorem parts_eq_iff (hc : c.user.isSome = true) (hd : d.user.isSome = true) :
    d.parts = c.parts ↔ d.database = c.database ∧ d.user = c.user ∧
      d.password.getD "" = c.password.getD "" := by
  obtain ⟨u, hu⟩ := Option.isSome_iff_exists.1 hc
  obtain ⟨v, hv⟩ := Option.isSome_iff_exists.1 hd
  simp [parts, hu, hv, String.toList_inj]

/-! The server and the port in the address. -/

theorem address_of_no_port (h : c.port = none) : c.address = c.serverName := by
  rw [address, portText, h, String.append_empty]

theorem address_of_port {p : Nat} (h : c.port = some p) :
    c.address = c.serverName ++ ("," ++ Text.showInt p) := by
  rw [address, portText, h]

theorem splitFirst?_address (h : ',' ∉ c.serverName.toList) :
    Text.splitFirst? (· == ',') c.address.toList =
      c.port.map fun p => (c.serverName.toList, Text.natDigits p) := by
  have hserver : ∀ x ∈ c.serverName.toList, (x == ',') = false := by
    intro x hx
    apply beq_false_of_ne
    rintro rfl
    exact h hx
  cases hport : c.port with
  | none =>
    rw [address_of_no_port hport, Text.splitFirst?_eq_none hserver]
    rfl
  | some p =>
    have hcomma : ",".toList = [','] := rfl
    rw [address_of_port hport, String.toList_append, String.toList_append, hcomma,
      Text.toList_showInt_natCast, List.singleton_append, Text.splitFirst?_append hserver rfl]
    rfl

/-- Where no server holds a comma the address tells the server and the port. -/
theorem address_eq_iff (hc : ',' ∉ c.serverName.toList) (hd : ',' ∉ d.serverName.toList) :
    d.address = c.address ↔ d.serverName = c.serverName ∧ d.port = c.port := by
  constructor
  · intro h
    have hsplit := splitFirst?_address hd
    rw [h, splitFirst?_address hc] at hsplit
    cases hcport : c.port with
    | none =>
      rw [hcport] at hsplit
      have hdport : d.port = none := Option.map_eq_none_iff.1 hsplit.symm
      rw [address_of_no_port hcport, address_of_no_port hdport] at h
      exact ⟨h, hdport⟩
    | some p =>
      rw [hcport] at hsplit
      obtain ⟨q, hdport, hpair⟩ := Option.map_eq_some_iff.1 hsplit.symm
      obtain ⟨hserver, hdigits⟩ := Prod.mk.inj hpair
      have hport := congrArg Text.readNat? hdigits
      rw [Text.readNat?_natDigits, Text.readNat?_natDigits] at hport
      exact ⟨String.toList_inj.1 hserver, hdport.trans hport⟩
  · rintro ⟨hserver, hport⟩
    rw [address, address, portText, portText, hserver, hport]

theorem endsInPort_of_port (hc : c.NamesUser) {p : Nat} (h : c.port = some p) : c.EndsInPort :=
  ⟨c.serverName, p, hc.port p h, address_of_port h⟩

theorem port_eq_none (hc : c.NamesUser) (h : ¬c.EndsInPort) : c.port = none := by
  cases hport : c.port with
  | none => rfl
  | some p => exact absurd (endsInPort_of_port hc hport) h

/-! When a configuration is known by its text. -/

theorem eq_of_connectionString_eq (hc : c.NamesUser) (hd : d.NamesUser) (hapart : c.MarksApart)
    (h : d.connectionString = c.connectionString) : d.address = c.address ∧ d.parts = c.parts := by
  have hwoven := (connectionString_eq_iff hc.user hd.user).1 h
  obtain ⟨haddress, hparts⟩ := Text.eq_of_woven_eq c.isMark_parts hapart (map_fst_parts d c) hwoven
  exact ⟨String.toList_inj.1 haddress, hparts⟩

theorem identified_of_marksApart (hc : c.NamesUser) (hapart : c.MarksApart)
    (hport : ¬c.EndsInPort) : c.Identified := by
  intro d hd h
  obtain ⟨haddress, hparts⟩ := eq_of_connectionString_eq hc hd hapart h
  obtain ⟨hdatabase, huser, hpassword⟩ := (parts_eq_iff hc.user hd.user).1 hparts
  have hcport := port_eq_none hc hport
  have hdport : d.port = none := by
    apply port_eq_none hd
    rintro ⟨s, p, hp, hends⟩
    exact hport ⟨s, p, hp, haddress ▸ hends⟩
  rw [address_of_no_port hcport, address_of_no_port hdport] at haddress
  exact ⟨haddress, hdport.trans hcport.symm, hdatabase, huser, hpassword⟩

/-- A configuration of any values, the port written with the server. -/
def ofValues (address database user password : String) : Config where
  dialect := .sqlServer
  server := some address
  database := database
  user := some user
  password := some password

theorem namesUser_ofValues (address database user password : String) :
    (ofValues address database user password).NamesUser := ⟨rfl, rfl, nofun⟩

/-- Whatever stands behind the marks is the parts of some configuration. -/
theorem exists_parts_eq {parts' : List (List Char × List Char)}
    (h : parts'.map Prod.fst = c.parts.map Prod.fst) :
    ∃ database user password, ∀ address,
      (ofValues address database user password).parts = parts' := by
  obtain ⟨⟨mark₁, database⟩, parts', rfl, hmark₁, h⟩ := List.map_eq_cons_iff.1 h
  obtain ⟨⟨mark₂, user⟩, parts', rfl, hmark₂, h⟩ := List.map_eq_cons_iff.1 h
  obtain ⟨⟨mark₃, password⟩, parts', rfl, hmark₃, h⟩ := List.map_eq_cons_iff.1 h
  obtain rfl := List.map_eq_nil_iff.1 h
  refine ⟨String.ofList database, String.ofList user, String.ofList password, fun address => ?_⟩
  dsimp only at hmark₁ hmark₂ hmark₃
  rw [hmark₁, hmark₂, hmark₃]
  simp [ofValues, parts]

theorem not_identified_of_mark (hc : c.NamesUser) (h : ¬c.MarksApart) : ¬c.Identified := by
  obtain ⟨address', parts', hsame, hwoven, hne⟩ := Text.exists_woven_eq c.isMark_parts h
  obtain ⟨database, user, password, hparts⟩ := exists_parts_eq hsame
  have hd := namesUser_ofValues (String.ofList address') database user password
  intro hidentified
  have hsettings := hidentified _ hd ((connectionString_eq_iff hc.user hd.user).2 (by
    rw [hparts, address_of_no_port rfl, serverName]
    simpa [ofValues] using hwoven))
  apply hne
  constructor
  · have haddress := hsettings.server
    rw [← address_of_no_port hsettings.port.symm] at haddress
    rw [← haddress]
    simp [ofValues, serverName]
  · rw [← hparts (String.ofList address')]
    exact (parts_eq_iff hc.user hd.user).2
      ⟨hsettings.database, hsettings.user, hsettings.password⟩

theorem not_identified_of_endsInPort (hc : c.NamesUser) (h : c.EndsInPort) : ¬c.Identified := by
  -- the port is taken out of the server's name or put into it
  have htwin : ∃ d : Config, d.NamesUser ∧ d.parts = c.parts ∧ d.address = c.address ∧
      d.port ≠ c.port := by
    obtain ⟨s, p, hp, haddress⟩ := h
    cases hport : c.port with
    | none =>
      have hfits : ∀ q ∈ some p, q < 65536 := by
        intro q hq
        cases hq
        exact hp
      refine ⟨{ c with server := some s, port := some p }, ⟨hc.dialect, hc.user, hfits⟩, rfl, ?_,
        nofun⟩
      rw [haddress, address_of_port rfl]
      rfl
    | some q =>
      exact ⟨{ c with server := some c.address, port := none }, ⟨hc.dialect, hc.user, nofun⟩, rfl,
        address_of_no_port rfl, nofun⟩
  obtain ⟨d, hd, hparts, haddress, hport⟩ := htwin
  intro hidentified
  apply hport
  have hsame := (connectionString_eq_iff hc.user hd.user).2 (by rw [hparts, haddress])
  exact (hidentified d hd hsame).port

/-! The settings that are read from a text. -/

/-- Each setting ends at a semicolon, and its name at the first equals sign. -/
def settingsOf (s : String) : List (String × String) :=
  ((Text.splitAll (· == ';') s.toList).filterMap (Text.splitFirst? (· == '='))).map fun p =>
    (String.ofList p.1, String.ofList p.2)

/-- What a configuration with a user sets. -/
def settings (c : Config) : List (String × String) :=
  [("Data Source", "TCP:" ++ c.address), ("Initial Catalog", c.database),
    ("User ID", c.user.getD ""), ("Password", c.password.getD "")]

theorem toList_connectionString_settings (h : c.user.isSome = true) :
    c.connectionString.toList =
      c.settings.flatMap fun e => e.1.toList ++ '=' :: (e.2.toList ++ [';']) := by
  rw [toList_connectionString h]
  have hsource : "Data Source=TCP:".toList = "Data Source".toList ++ '=' :: "TCP:".toList := rfl
  have hcatalog : "Initial Catalog=".toList = "Initial Catalog".toList ++ ['='] := rfl
  have huser : "User ID=".toList = "User ID".toList ++ ['='] := rfl
  have hpassword : "Password=".toList = "Password".toList ++ ['='] := rfl
  unfold settings parts Text.woven
  simp only [String.toList_append, hsource, hcatalog, huser, hpassword, List.flatMap_cons,
    List.flatMap_nil, List.append_assoc, List.cons_append, List.nil_append, List.append_nil]

theorem settingsOf_of_not_mem {es : List (String × String)}
    (hnames : ∀ e ∈ es, ';' ∉ e.1.toList ∧ '=' ∉ e.1.toList) (hvalues : ∀ e ∈ es, ';' ∉ e.2.toList)
    {s : String} (hs : s.toList = es.flatMap fun e => e.1.toList ++ '=' :: (e.2.toList ++ [';'])) :
    settingsOf s = es := by
  have hne {x : Char} {cs : List Char} (h : x ∉ cs) : ∀ y ∈ cs, (y == x) = false := by
    intro y hy
    apply beq_false_of_ne
    rintro rfl
    exact h hy
  rw [settingsOf, hs]
  clear hs
  induction es with
  | nil => rfl
  | cons e es ih =>
    obtain ⟨hname, hequals⟩ := hnames e List.mem_cons_self
    have hentry : ';' ∉ e.1.toList ++ '=' :: e.2.toList := by
      simp [hname, hvalues e List.mem_cons_self]
    have hrest := ih (fun e he => hnames e (List.mem_cons_of_mem _ he))
      (fun e he => hvalues e (List.mem_cons_of_mem _ he))
    have htext : (e :: es).flatMap (fun e => e.1.toList ++ '=' :: (e.2.toList ++ [';'])) =
        (e.1.toList ++ '=' :: e.2.toList) ++
          ';' :: es.flatMap fun e => e.1.toList ++ '=' :: (e.2.toList ++ [';']) := by
      simp
    have hread : Text.splitFirst? (· == '=') (e.1.toList ++ '=' :: e.2.toList) =
        some (e.1.toList, e.2.toList) := Text.splitFirst?_append (hne hequals) rfl _
    rw [htext, Text.splitAll_append (hne hentry) rfl, List.filterMap_cons_some hread,
      List.map_cons, hrest, String.ofList_toList, String.ofList_toList]

/-- No value that is read holds a semicolon. -/
theorem not_mem_of_mem_settingsOf {s : String} {e : String × String} (h : e ∈ settingsOf s) :
    ';' ∉ e.2.toList := by
  obtain ⟨p, hp, rfl⟩ := List.mem_map.1 h
  obtain ⟨w, hw, hsplit⟩ := List.mem_filterMap.1 hp
  obtain ⟨x, rfl⟩ := Text.eq_of_splitFirst? hsplit
  rw [String.toList_ofList]
  intro hmem
  have hnot := Text.of_mem_splitAll hw ';'
    (List.mem_append_right p.1 (List.mem_cons_of_mem x hmem))
  cases hnot

/-- The settings are read from the text exactly if no value holds a semicolon. -/
theorem settingsOf_connectionString_iff (h : c.user.isSome = true) :
    settingsOf c.connectionString = c.settings ↔ ∀ e ∈ c.settings, ';' ∉ e.2.toList := by
  constructor
  · intro hread e he
    rw [← hread] at he
    exact not_mem_of_mem_settingsOf he
  · intro hvalues
    refine settingsOf_of_not_mem ?_ hvalues (toList_connectionString_settings h)
    intro e he
    simp only [settings, List.mem_cons, List.not_mem_nil, or_false] at he
    rcases he with rfl | rfl | rfl | rfl
    all_goals exact ⟨by simp, by simp⟩

theorem marksApart_of_not_mem (h : ∀ e ∈ c.settings, ';' ∉ e.2.toList) : c.MarksApart := by
  simp only [settings, List.forall_mem_cons, List.not_mem_nil, false_imp_iff, implies_true,
    and_true] at h
  obtain ⟨haddress, hdatabase, huser, hpassword⟩ := h
  apply Text.apart_of_not_mem c.isMark_parts
  · intro hmem
    apply haddress
    rw [String.toList_append]
    exact List.mem_append_right _ hmem
  · simp only [parts, List.forall_mem_cons, List.not_mem_nil, false_imp_iff, implies_true,
      and_true]
    exact ⟨hdatabase, huser, hpassword⟩

/-- What the text of a configuration with a user tells, whatever its values are. No other settings
have the same text exactly if no mark stands in a value next to it and the address does not end in
a port. Where no mark does and no server holds a comma, the texts are the same for the same settings
only. The text sets what the configuration sets exactly if no value holds a semicolon, and then no
mark stands in a value. -/
theorem connectionString_identifies (hc : c.NamesUser) :
    (c.Identified ↔ c.MarksApart ∧ ¬c.EndsInPort) ∧
    (c.MarksApart → ',' ∉ c.serverName.toList →
      ∀ d : Config, d.NamesUser → ',' ∉ d.serverName.toList →
        (d.connectionString = c.connectionString ↔ d.SameSettings c)) ∧
    (settingsOf c.connectionString = c.settings ↔ ∀ e ∈ c.settings, ';' ∉ e.2.toList) ∧
    (settingsOf c.connectionString = c.settings → c.MarksApart) := by
  have hread := settingsOf_connectionString_iff hc.user
  refine ⟨⟨fun hidentified => ⟨?_, ?_⟩, fun h => identified_of_marksApart hc h.1 h.2⟩, ?_, hread,
    fun h => marksApart_of_not_mem (hread.1 h)⟩
  · by_contra hmark
    exact not_identified_of_mark hc hmark hidentified
  · intro hport
    exact not_identified_of_endsInPort hc hport hidentified
  · intro hapart hserver d hd hserver'
    constructor
    · intro h
      obtain ⟨haddress, hparts⟩ := eq_of_connectionString_eq hc hd hapart h
      obtain ⟨hname, hport⟩ := (address_eq_iff hserver hserver').1 haddress
      obtain ⟨hdatabase, huser, hpassword⟩ := (parts_eq_iff hc.user hd.user).1 hparts
      exact ⟨hname, hport, hdatabase, huser, hpassword⟩
    · intro h
      have haddress := (address_eq_iff hserver hserver').2 ⟨h.server, h.port⟩
      have hparts := (parts_eq_iff hc.user hd.user).2 ⟨h.database, h.user, h.password⟩
      rw [connectionString_eq_iff hc.user hd.user, haddress, hparts]

/-- With a mark in its password a configuration has the text of another user with another password,
and two passwords are read from it. -/
theorem markedPassword_not_identified :
    (ofValues "db01" "Sales" "sa" "x;Password=y").NamesUser ∧
      (ofValues "db01" "Sales" "sa;Password=x" "y").connectionString =
        (ofValues "db01" "Sales" "sa" "x;Password=y").connectionString ∧
      ¬(ofValues "db01" "Sales" "sa" "x;Password=y").Identified ∧
      settingsOf (ofValues "db01" "Sales" "sa" "x;Password=y").connectionString ≠
        (ofValues "db01" "Sales" "sa" "x;Password=y").settings := by
  have hc := namesUser_ofValues "db01" "Sales" "sa" "x;Password=y"
  obtain ⟨hidentified, -, hread, -⟩ := connectionString_identifies hc
  refine ⟨hc, by decide +kernel, fun h => ?_, fun h => ?_⟩
  · obtain ⟨-, -, -, -, -, hpassword, -⟩ := (hidentified.1 h).1
    exact hpassword ⟨['x'], ['y'], rfl⟩
  · have hnot := hread.1 h ("Password", "x;Password=y") (by decide +kernel)
    exact hnot (by decide +kernel)

end RowLedger.Config
