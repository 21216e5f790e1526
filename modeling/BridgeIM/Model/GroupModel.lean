import BridgeIM.Model.UserModel

namespace BridgeIM.Model.GroupModel

open CString UserModel

structure AllGroup where
  id : Int
  groupname : String
  groupdesc : Option String
  deriving DecidableEq, Repr

structure Member where
  groupid : Int
  userid : Int
  grouprole : Option String
  deriving DecidableEq, Repr

structure Table where
  groups : List AllGroup := []
  members : List Member := []
  deriving DecidableEq, Repr

structure GroupUser extends User where
  role : String
  deriving DecidableEq, Repr

structure Group where
  id : Int
  name : String
  desc : String
  users : List GroupUser := []
  deriving DecidableEq, Repr

/-- The first statement of `queryGroup`: the groups of a user, without their members. -/
def queryGroup (userid : Int) (t : Table) : List Group :=
  (t.members.filter (fun b => b.userid = userid)).flatMap fun b =>
    (t.groups.filter (fun a => a.id = b.groupid)).map fun a =>
      { id := a.id, name := cstring a.groupname, desc := (a.groupdesc.map cstring).getD "" }

/-- The statement that `queryGroup` runs for each group. -/
def queryMembers (groupid : Int) (t : Table) (users : UserModel.Table) : List GroupUser :=
  (t.members.filter (fun b => b.groupid = groupid)).flatMap fun b =>
    (users.rows.filter (fun r => r.id = b.userid)).map fun r =>
      { r.user with password := "", role := (b.grouprole.map cstring).getD "" }

def queryGroupName (groupid : Int) (t : Table) : String :=
  ((t.groups.find? fun a => a.id = groupid).map fun a => cstring a.groupname).getD ""

/-- The members of a group other than one user. -/
def queryGroupUsers (userid groupid : Int) (t : Table) : List Int :=
  (t.members.filter fun b => b.groupid = groupid && b.userid ≠ userid).map fun b => b.userid

end BridgeIM.Model.GroupModel
