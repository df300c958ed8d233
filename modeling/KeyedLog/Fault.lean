import KeyedLog.Text.Quoted

/-! What can go wrong with files and output streams, and with the sinks that write to them. -/

namespace KeyedLog

inductive IoFault where
  | notFound
  | alreadyExists
  | notDirectory
  | isDirectory
  | invalidArgument
  | nameTooLong
  | notEmpty
  | nulInPath
  | notText
  | other (reason : String)
  deriving DecidableEq, Repr

def IoFault.message : IoFault → String
  | notFound => "No such file or directory (os error 2)"
  | alreadyExists => "File exists (os error 17)"
  | notDirectory => "Not a directory (os error 20)"
  | isDirectory => "Is a directory (os error 21)"
  | invalidArgument => "Invalid argument (os error 22)"
  | nameTooLong => "File name too long (os error 36)"
  | notEmpty => "Directory not empty (os error 39)"
  | nulInPath => "file name contained an unexpected NUL byte"
  | notText => "stream did not contain valid UTF-8"
  | other reason => reason

inductive SinkFault where
  | io (path : String) (cause : IoFault)
  | stopped (name : String)
  | invalidKey (key : String) (reason : String)
  deriving DecidableEq, Repr

def SinkFault.message : SinkFault → String
  | io path cause => "I/O error on " ++ path ++ ": " ++ cause.message
  | stopped name => "sink " ++ name ++ " is stopped"
  | invalidKey key reason => "cannot create sink for key " ++ Quoted.quote key ++ ": " ++ reason

end KeyedLog
