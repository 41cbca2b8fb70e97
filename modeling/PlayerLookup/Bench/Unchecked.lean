import PlayerLookup.Bench.Member
import PlayerLookup.Settings

/-! Settings with values in the place of others that nobody has checked. -/

set_option autoImplicit false

namespace PlayerLookup.Settings

def withUnchecked (s : Settings) (name : String) (value : Document) : Settings :=
  match name with
  | "profiles_url" => { s with profilesUrl := value.display }
  | "name_history_url" => { s with historyUrl := value.display }
  | "max_retries" => { s with retries := value.whole }
  | "retry_delay_ms" => { s with retryDelayMs := value.whole }
  | "request_timeout" => { s with timeout := value.nonNull? Document.amount }
  | "parallel_threads" => { s with threads := value.whole }
  | "profiles_per_job" => { s with jobSize := value.whole }
  | "cache_path" => { s with cachePath := value.nonNull? Document.display }
  | "case_sensitive_names" => { s with caseSensitive := value.isTrue }
  | "player_registry" => { s with registry := value.nonNull? Document.display }
  | "log_level" => { s with logLevel := value.display }
  | _ => s

def withAllUnchecked (s : Settings) (values : List (String × Document)) : Settings :=
  values.foldl (fun s v => s.withUnchecked v.1 v.2) s

end PlayerLookup.Settings
