import ScriptAudit.Command.Bundled.Shape

/-! Memory, files, libraries, audio streams and bit arithmetic. -/
namespace ScriptAudit.Bundled

def memoryCommands : List Command :=
  [action 0x0A8C "write_memory" [any, any, any, any],
   action 0x0A8D "read_memory" [any, any, any, outOwn],
   action 0x0A8E "int_add" [any, any, outOwn],
   action 0x0A8F "int_sub" [any, any, outOwn],
   action 0x0A90 "int_mul" [any, any, outOwn],
   action 0x0A91 "int_div" [any, any, outOwn],
   action 0x0A92 "stream_custom_script" [string, more],
   action 0x0A93 "terminate_this_custom_script" [],
   action 0x0A94 "load_and_launch_custom_mission" [string, more],
   action 0x0A95 "save_this_custom_script" [],
   action 0x0A96 "get_ped_pointer" [any, outOwn],
   action 0x0A97 "get_vehicle_pointer" [any, outOwn],
   action 0x0A98 "get_object_pointer" [any, outOwn],
   action 0x0A99 "set_current_directory" [any],
   condition 0x0A9A "open_file" [string, any, outOwn],
   action 0x0A9B "close_file" [any],
   action 0x0A9C "get_file_size" [any, outOwn],
   action 0x0A9D "read_from_file" [any, any, outOwn],
   action 0x0A9E "write_to_file" [any, any, any],
   action 0x0A9F "get_this_script_struct" [outOwn],
   action 0x0AA0 "gosub_if_false" [pointer],
   action 0x0AA1 "return_if_false" [],
   condition 0x0AA2 "load_dynamic_library" [string, outOwn],
   action 0x0AA3 "free_dynamic_library" [any],
   condition 0x0AA4 "get_dynamic_library_procedure" [string, any, outOwn],
   action 0x0AA5 "call_function" [any, any, any, more],
   action 0x0AA6 "call_method" [any, any, any, any, more],
   action 0x0AA7 "call_function_return" [any, any, any, more],
   action 0x0AA8 "call_method_return" [any, any, any, any, more],
   condition 0x0AA9 "is_game_version_original" [],
   action 0x0AAA "get_script_struct_named" [string, outOwn],
   condition 0x0AAB "does_file_exist" [string],
   action 0x0AAC "load_audio_stream" [string, outOwn],
   action 0x0AAD "set_audio_stream_state" [any, int],
   action 0x0AAE "remove_audio_stream" [any],
   action 0x0AAF "get_audio_stream_length" [any, outOwn],
   condition 0x0AB0 "is_key_pressed" [int],
   action 0x0AB1 "cleo_call" [pointer, any, more],
   action 0x0AB2 "cleo_return" [any, more],
   action 0x0AB3 "set_cleo_shared_var" [int, any],
   action 0x0AB4 "get_cleo_shared_var" [int, outOwn],
   action 0x0AB5 "store_closest_entities" [any, outOwn, outOwn],
   condition 0x0AB6 "get_target_blip_coords" [outOwn, outOwn, outOwn],
   action 0x0AB7 "get_car_number_of_gears" [any, outOwn],
   action 0x0AB8 "get_car_current_gear" [any, outOwn],
   action 0x0AB9 "get_audio_stream_state" [any, outOwn],
   action 0x0ABA "terminate_all_custom_scripts_with_this_name" [string],
   action 0x0ABB "get_audio_stream_volume" [any, outOwn],
   action 0x0ABC "set_audio_stream_volume" [any, real],
   condition 0x0ABD "is_car_siren_on" [any],
   condition 0x0ABE "is_car_engine_on" [any],
   action 0x0ABF "cleo_set_car_engine_on" [any, int],
   action 0x0AC0 "set_audio_stream_looped" [any, int],
   action 0x0AC1 "load_3d_audio_stream" [string, outOwn],
   action 0x0AC2 "set_play_3d_audio_stream_at_coords" [any, real, real, real],
   action 0x0AC3 "set_play_3d_audio_stream_at_object" [any, any],
   action 0x0AC4 "set_play_3d_audio_stream_at_char" [any, any],
   action 0x0AC5 "set_play_3d_audio_stream_at_car" [any, any],
   action 0x0AC6 "get_label_pointer" [pointer, outOwn],
   action 0x0AC7 "get_var_pointer" [any, outOwn],
   action 0x0AC8 "allocate_memory" [int, outOwn],
   action 0x0AC9 "free_memory" [any],
   action 0x0ACA "print_help_string" [string],
   action 0x0ACB "print_big_string" [string, int, int],
   action 0x0ACC "print_string" [string, int],
   action 0x0ACD "print_string_now" [string, int],
   action 0x0ACE "print_help_formatted" [string, more],
   action 0x0ACF "print_big_formatted" [string, int, int, more],
   action 0x0AD0 "print_formatted" [string, int, more],
   action 0x0AD1 "print_formatted_now" [string, int, more],
   condition 0x0AD2 "get_char_player_is_targeting" [any, outOwn],
   action 0x0AD3 "string_format" [outOwn, string, more],
   condition 0x0AD4 "scan_string" [any, string, more],
   action 0x0AD5 "file_seek" [any, int, int],
   condition 0x0AD6 "is_end_of_file_reached" [any],
   condition 0x0AD7 "read_string_from_file" [any, outOwn, int],
   condition 0x0AD8 "write_string_to_file" [any, string],
   action 0x0AD9 "write_formatted_string_to_file" [any, string, more],
   action 0x0ADA "scan_file" [any, string, more],
   action 0x0ADB "get_name_of_vehicle_model" [model, outOwn],
   condition 0x0ADC "test_cheat" [string],
   action 0x0ADD "spawn_vehicle_by_cheating" [model],
   action 0x0ADE "get_text_label_string" [string, outOwn],
   action 0x0ADF "add_text_label" [string, string],
   action 0x0AE0 "remove_text_label" [string],
   condition 0x0AE1 "get_random_char_in_sphere_no_save_recursive" [real, real, real, real, int,
      int, outOwn],
   condition 0x0AE2 "get_random_car_in_sphere_no_save_recursive" [real, real, real, real, int,
      int, outOwn],
   condition 0x0AE3 "get_random_object_in_sphere_no_save_recursive" [real, real, real, real, int,
      outOwn],
   condition 0x0AE4 "does_directory_exist" [string],
   action 0x0AE5 "create_directory" [string],
   condition 0x0AE6 "find_first_file" [string, outOwn, outOwn],
   condition 0x0AE7 "find_next_file" [any, outOwn],
   action 0x0AE8 "find_close" [any],
   action 0x0AE9 "pop_float" [outOwn],
   action 0x0AEA "get_ped_ref" [any, outOwn],
   action 0x0AEB "get_vehicle_ref" [any, outOwn],
   action 0x0AEC "get_object_ref" [any, outOwn],
   action 0x0AED "string_float_format" [real, string, outOwn],
   action 0x0AEE "pow" [real, real, outOwn],
   action 0x0AEF "log" [real, real, outOwn],
   action 0x0B10 "bit_and" [any, any, outOwn],
   action 0x0B11 "bit_or" [any, any, outOwn],
   action 0x0B12 "bit_xor" [any, any, outOwn],
   action 0x0B13 "bit_not" [any, outOwn],
   action 0x0B14 "mod" [any, any, outOwn],
   action 0x0B15 "bit_shr" [any, any, outOwn],
   action 0x0B16 "bit_shl" [any, any, outOwn],
   action 0x0B17 "bit_and_compound" [any, any],
   action 0x0B18 "bit_or_compound" [any, any],
   action 0x0B19 "bit_xor_compound" [any, any],
   action 0x0B1A "bit_not_compound" [any],
   action 0x0B1B "mod_compound" [any, any],
   action 0x0B1C "bit_shr_compound" [any, any],
   action 0x0B1D "bit_shl_compound" [any, any]]

end ScriptAudit.Bundled
