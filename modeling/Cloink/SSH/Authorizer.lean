import Cloink.NetworkMap.Components

/-!
# SSH authorization on the wire and in the server

The users accepted over SSH are sent as one list of hashed user ids, and for each OS user a list of
indexes into it. The client hands both to the authorizer of its SSH server, which looks up the
index of the user that logs in. The order in which the source runs through its maps is the order
of the entries of the model's maps.
-/

namespace Cloink.SSH

/-- A hashed user id of 16 bytes. -/
abbrev UserIDHash := { h : List UInt8 // h.length = 16 }

structure SSHAuth where
  userIDClaim : String := ""
  authorizedUsers : List (List UInt8) := []
  machineUsers : StrMap (List UInt32) := ∅

/-! ### Encoding -/

/-- The hashed users so far and the index of each of them. -/
structure UserTable where
  userIDToIndex : StrMap UInt32 := ∅
  hashedUsers : List (List UInt8) := []

section

-- `HashUserID`, absent on error
variable (hashUserID : String → Option UserIDHash)

/-- One user of an OS user: its index, which is a new one when the user was not met before. A user
whose hash fails is left out. -/
def addUser (st : UserTable × List UInt32) (userID : String) : UserTable × List UInt32 :=
  match st.1.userIDToIndex.lookup userID with
  | some idx => (st.1, st.2 ++ [idx])
  | none =>
    match hashUserID userID with
    | none => st
    | some hash =>
      let idx := UInt32.ofNat st.1.hashedUsers.length
      ({ userIDToIndex := st.1.userIDToIndex.insert userID idx
         hashedUsers := st.1.hashedUsers ++ [hash.1] }, st.2 ++ [idx])

/-- One OS user with the users accepted for it. -/
def addMachineUser (st : UserTable × StrMap (List UInt32)) (e : (_ : String) × List String) :
    UserTable × StrMap (List UInt32) :=
  let (table, indexes) := e.2.foldl (addUser hashUserID) (st.1, [])
  (table, st.2.insert e.1 indexes)

def buildAuthorizedUsersProto (authorizedUsers : StrMap (List String)) :
    List (List UInt8) × StrMap (List UInt32) :=
  let (table, machineUsers) := authorizedUsers.entries.foldl (addMachineUser hashUserID) ({}, ∅)
  (table.hashedUsers, machineUsers)

/-- The message for a map of accepted users. -/
def sshAuthFor (userIDClaim : String) (authorizedUsers : StrMap (List String)) : SSHAuth :=
  let (hashedUsers, machineUsers) := buildAuthorizedUsersProto hashUserID authorizedUsers
  { userIDClaim := userIDClaim, authorizedUsers := hashedUsers, machineUsers := machineUsers }

end

/-! ### The authorizer -/

def defaultUserIDClaim : String := "sub"

structure Config where
  userIDClaim : String
  authorizedUsers : List UserIDHash
  machineUsers : StrMap (List UInt32)

structure Authorizer where
  userIDClaim : String := defaultUserIDClaim
  authorizedUsers : List UserIDHash := []
  machineUsers : StrMap (List UInt32) := ∅

/-- Why a login is refused: the errors of `Authorize` with what their messages name. -/
inductive AuthError where
  | emptyUserID (osUsername : String)
  | hashUserID (jwtUserID osUsername : String)
  | userNotAuthorized (jwtUserID : String) (hash : UserIDHash) (osUsername : String)
  | noMachineUserMapping (osUsername jwtUserID : String)
  | userNotMappedToOSUser (jwtUserID osUsername : String) (index : Nat)
  deriving DecidableEq

namespace Authorizer

def update (_a : Authorizer) : Option Config → Authorizer
  | none => {}
  | some config =>
    { userIDClaim := if config.userIDClaim = "" then defaultUserIDClaim else config.userIDClaim
      authorizedUsers := config.authorizedUsers
      machineUsers := config.machineUsers.select fun _ indexes => !indexes.isEmpty }

/-- The index of the first user with this hash. -/
def findUserIndex (a : Authorizer) (hashedUserID : UserIDHash) : Option Nat :=
  a.authorizedUsers.findIdx? (· = hashedUserID)

def isIndexInList (index : UInt32) (indexes : List UInt32) : Bool := indexes.any (· = index)

/-- `checkMachineUserMapping`: the wildcard first, then the OS user itself. -/
def checkMachineUserMapping (a : Authorizer) (jwtUserID osUsername : String) (userIndex : Nat) :
    Except AuthError String :=
  let index := UInt32.ofNat userIndex
  if (a.machineUsers.lookup wildcard).any (isIndexInList index) then
    .ok ("granted via wildcard (index: " ++ toString userIndex ++ ")")
  else
    match a.machineUsers.lookup osUsername with
    | none => .error (.noMachineUserMapping osUsername jwtUserID)
    | some allowedIndexes =>
      if isIndexInList index allowedIndexes then
        .ok ("granted (index: " ++ toString userIndex ++ ")")
      else .error (.userNotMappedToOSUser jwtUserID osUsername userIndex)

def authorize (hashUserID : String → Option UserIDHash) (a : Authorizer)
    (jwtUserID osUsername : String) : Except AuthError String :=
  if jwtUserID = "" then .error (.emptyUserID osUsername)
  else
    match hashUserID jwtUserID with
    | none => .error (.hashUserID jwtUserID osUsername)
    | some hashedUserID =>
      match a.findUserIndex hashedUserID with
      | none => .error (.userNotAuthorized jwtUserID hashedUserID osUsername)
      | some userIndex => a.checkMachineUserMapping jwtUserID osUsername userIndex

end Authorizer

/-! ### The client -/

/-- A hash of the message, when it has the right length. -/
def toUserIDHash (hash : List UInt8) : Option UserIDHash :=
  if h : hash.length = 16 then some ⟨hash, h⟩ else none

/-- `updateSSHServerAuth`: without a message or a running server nothing changes, and a hash of a
wrong length has the whole message ignored. -/
def updateSSHServerAuth (sshServer : Option Authorizer) (sshAuth : Option SSHAuth) :
    Option Authorizer :=
  match sshAuth, sshServer with
  | some sshAuth, some authorizer =>
    match sshAuth.authorizedUsers.mapM toUserIDHash with
    | none => some authorizer
    | some authorizedUsers =>
      some (authorizer.update (some
        { userIDClaim := sshAuth.userIDClaim
          authorizedUsers := authorizedUsers
          machineUsers := sshAuth.machineUsers }))
  | _, sshServer => sshServer

end Cloink.SSH
